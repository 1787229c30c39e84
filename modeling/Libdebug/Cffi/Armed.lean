import Libdebug.Cffi.Session

/-!
After `prepare_for_run` every breakpoint that is switched on is armed.

Each arming write covers eight bytes, so neighbours overwrite each other. The list
is kept in strictly increasing address order by every call, hence a later write
starts beyond the trap byte of an earlier one.
-/

namespace Libdebug.Cffi

open Libdebug.Foundation

variable {K : Type} {k : Kernel K} {pid : Int}

theorem steppingFinish_bHead (fuel : Nat) (g : GlobalState) (w : World K) (tid : Int) :
    (steppingFinish k fuel g w tid).2.1.bHead = g.bHead := by
  obtain ⟨g', w', performed, done | done | done⟩ := steppingFinish_spec (k := k) fuel g w tid <;>
    rw [done] <;> exact performed.bHead

theorem waitAllAndUpdateRegs_bHead (fuel : Nat) (g : GlobalState) (w : World K) (pid : Int) :
    (waitAllAndUpdateRegs k fuel g w pid).2.1.bHead = g.bHead := by
  obtain ⟨g', w', performed, done | done | ⟨list, done⟩⟩ :=
      waitAllAndUpdateRegs_spec (k := k) fuel g w pid <;>
    rw [done] <;> exact performed.bHead

/-- What one call can do to the table. -/
theorem Session.call_bHead {s next : Session K} {call : Call}
    (called : s.call k pid call = some next) :
    next.g.bHead = s.g.bHead ∨
      (∃ b, findEntry b.addr s.g.bHead = none ∧ next.g.bHead = insertBreakpoint b s.g.bHead) ∨
      (∃ address enabled, next.g.bHead = setEnabled address enabled s.g.bHead) ∨
      (∃ address, next.g.bHead = removeEntry address s.g.bHead) ∨
      next.g.bHead = [] := by
  cases call with
  | registerThread tid =>
      cases called
      left
      simp only [registerThread]
      split <;> simp
  | unregisterThread tid =>
      cases called
      left
      simp only [unregisterThread]
      split <;> rfl
  | registerBreakpoint address =>
      rcases registerBreakpoint_cases s.g s.w address with
          ⟨b, -, done⟩ | ⟨b, absent, rfl, -, -, done⟩ <;>
        simp only [call, done] at called <;> cases called
      · exact .inr (.inr (.inl ⟨address, true, rfl⟩))
      · exact .inr (.inl ⟨b, absent, rfl⟩)
  | unregisterBreakpoint address =>
      cases called
      exact .inr (.inr (.inr (.inl ⟨address, rfl⟩)))
  | enableBreakpoint address =>
      obtain ⟨⟨g, w⟩, switched, rfl⟩ := Option.map_eq_some_iff.mp called
      rcases enableBreakpoint_cases switched with ⟨-, rfl, -⟩ | ⟨b, -, rfl, -⟩
      · exact .inl rfl
      · exact .inr (.inr (.inl ⟨address, true, rfl⟩))
  | disableBreakpoint address =>
      obtain ⟨⟨g, w⟩, switched, rfl⟩ := Option.map_eq_some_iff.mp called
      rcases disableBreakpoint_cases switched with ⟨-, rfl, -⟩ | ⟨b, -, rfl, -⟩
      · exact .inl rfl
      · exact .inr (.inr (.inl ⟨address, false, rfl⟩))
  | freeBreakpoints =>
      cases called
      exact .inr (.inr (.inr (.inr rfl)))
  | writeRegs | forward | ptracePokedata | singlestep | contAllAndSetBps =>
      cases called
      exact .inl rfl
  | stepUntil fuel tid addr maxSteps =>
      have performed := stepUntil_performs (k := k) fuel s.g s.w tid addr maxSteps
      simp only [call] at called
      split at called <;> cases called
      rename_i result
      rw [result] at performed
      exact .inl performed.bHead
  | steppingFinish fuel tid =>
      have kept := steppingFinish_bHead (k := k) fuel s.g s.w tid
      simp only [call] at called
      split at called <;> cases called
      rename_i result
      exact .inl (by simpa [result] using kept)
  | waitAllAndUpdateRegs fuel =>
      have kept := waitAllAndUpdateRegs_bHead (k := k) fuel s.g s.w pid
      simp only [call] at called
      split at called <;> cases called <;> rename_i result <;>
        exact .inl (by simpa [result] using kept)

theorem Session.call_increasing {s next : Session K} {call : Call}
    (increasing : Increasing s.g.bHead) (called : s.call k pid call = some next) :
    Increasing next.g.bHead := by
  rcases Session.call_bHead called with
    same | ⟨b, absent, inserted⟩ | ⟨address, enabled, switched⟩ | ⟨address, removed⟩ | freed
  · rwa [same]
  · rw [inserted]
    exact increasing_insertBreakpoint increasing absent
  · rw [switched]
    exact increasing_setEnabled enabled increasing
  · rw [removed]
    exact increasing.sublist (removeEntry_sublist address _)
  · rw [freed]
    exact List.Pairwise.nil

/-- In every state reached from the empty table the list is in address order. -/
theorem session_increasing {s₀ s : Session K} {calls : List Call} (start : s₀.g.bHead = [])
    (reached : (session k pid).run s₀ calls = some s) : Increasing s.g.bHead :=
  Machine.run_invariant (motive := fun s => Increasing s.g.bHead)
    (fun _ _ _ increasing _ called => Session.call_increasing increasing called)
    (by rw [start]; exact List.Pairwise.nil) Machine.meets_always reached

/-- The arming loop over an ordered list leaves the trap byte of every breakpoint
that is switched on in memory. -/
theorem armBreakpoints_int3 {g : GlobalState} {w : World K} {b : SoftwareBreakpoint}
    (increasing : Increasing g.bHead) (member : b ∈ g.bHead) (enabled : b.enabled = true) :
    (armBreakpoints g w).mem b.addr = int3 := by
  have written : (b.addr, b.patchedInstruction) ∈
      (g.bHead.filter (·.enabled)).map fun b => (b.addr, b.patchedInstruction) :=
    List.mem_map_of_mem (List.mem_filter.mpr ⟨member, enabled⟩)
  have ordered : ((g.bHead.filter (·.enabled)).map fun b => (b.addr, b.patchedInstruction)).Pairwise
      fun first second => first.1 < second.1 :=
    List.pairwise_map.mpr (increasing.sublist List.filter_sublist)
  rw [armBreakpoints_eq]
  calc pokeAll _ w.mem b.addr
    _ = byteOf b.patchedInstruction 0 := pokeAll_first_byte ordered written w.mem
    _ = int3 := by rw [b.patched, byteOf_installBreakpoint_zero]

/-- Whatever calls were made since the table was empty, when `prepare_for_run`
returns a status every breakpoint that is switched on is armed. -/
theorem enabled_breakpoints_armed {s₀ s : Session K} {calls : List Call}
    (start : s₀.g.bHead = []) (reached : (session k pid).run s₀ calls = some s)
    (prepared : 0 ≤ (prepareForRun k s.g s.w).1) {b : SoftwareBreakpoint}
    (member : b ∈ s.g.bHead) (enabled : b.enabled = true) :
    (prepareForRun k s.g s.w).2.mem b.addr = int3 := by
  obtain ⟨w, -, gaveUp | ⟨status, -, done⟩⟩ := prepareForRun_spec (k := k) s.g s.w
  · rw [gaveUp] at prepared
    omega
  · rw [done]
    exact armBreakpoints_int3 (session_increasing start reached) member enabled

theorem overlapping_breakpoints_armed :
    ∃ s, (session scripted 1).run (.initial (.nops { registers := fun _ => none }))
        [.registerThread 1, .registerBreakpoint 0x1003, .registerBreakpoint 0x1000] = some s ∧
      (prepareForRun scripted s.g s.w).2.mem 0x1000 = int3 ∧
      (prepareForRun scripted s.g s.w).2.mem 0x1003 = int3 := by
  have reached : (session scripted 1).run (.initial (.nops { registers := fun _ => none }))
      [.registerThread 1, .registerBreakpoint 0x1003, .registerBreakpoint 0x1000] = some _ := rfl
  have armed := fun b => @enabled_breakpoints_armed _ scripted 1 _ _ _ rfl reached (by decide) b
  exact ⟨_, reached, armed ⟨0x1000, _, _, true, rfl⟩ List.mem_cons_self rfl,
    armed ⟨0x1003, _, _, true, rfl⟩ (List.mem_cons_of_mem _ List.mem_cons_self) rfl⟩

end Libdebug.Cffi
