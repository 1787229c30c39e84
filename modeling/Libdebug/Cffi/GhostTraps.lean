import Libdebug.Cffi.Armed

/-!
Ghost traps: trap bytes where no breakpoint is switched on.

The word of a new breakpoint is saved from memory as it is, so it may capture the
trap byte that an earlier registration has already written just above. From then on
arming and restoring the new breakpoint writes that byte back, also after the other
breakpoint has been switched off. `CleanCall` rules this capture out, and under it
the text stays clean over every run.
-/

namespace Libdebug.Cffi

open Libdebug.Foundation

variable {K : Type} {k : Kernel K} {pid : Int} {own : Memory} {text : Set Nat}

/-- A word at an address spells the program's own text, as far as its window reaches. -/
def Spells (own : Memory) (text : Set Nat) (addr : Nat) (word : Word) : Prop :=
  ∀ x ∈ text, Covers addr x → byteOf word (x - addr) = own x

/-- `own` is the program's own text. The saved words spell it, and memory differs
from it only at trap bytes of breakpoints that are switched on. -/
structure Session.Clean (own : Memory) (text : Set Nat) (s : Session K) : Prop where
  words : ∀ b ∈ s.g.bHead, Spells own text b.addr b.instruction
  bytes : ∀ x ∈ text, s.w.mem x = own x ∨ (x ∈ s.planted ∧ x ∈ s.g.enabledAddrs)

/-- The call neither captures a trap byte in a saved word, nor forgets a breakpoint
whose trap byte is in memory, nor changes the text. -/
def CleanCall (own : Memory) (text : Set Nat) (s : Session K) : Call → Prop
  | .registerBreakpoint address =>
      findEntry address s.g.bHead = none →
        ∀ x ∈ text, address < x → x < address + 8 → s.w.mem x = own x
  | .unregisterBreakpoint address => address ∈ text → s.w.mem address = own address
  | .freeBreakpoints => ∀ x ∈ text, s.w.mem x = own x
  | .ptracePokedata addr data => Spells own text addr data
  | _ => True

namespace Session.Clean

/-- Patched, a saved word differs from the text at its first byte only. -/
theorem patched {s : Session K} (clean : s.Clean own text) {b : SoftwareBreakpoint}
    (member : b ∈ s.g.bHead) {x : Nat} (inText : x ∈ text) (covered : Covers b.addr x)
    (other : x ≠ b.addr) : byteOf b.patchedInstruction (x - b.addr) = own x := by
  obtain ⟨above, below⟩ := covered
  rw [b.patched, byteOf_installBreakpoint_succ _ (by omega) (by omega)]
  exact clean.words b member x inText ⟨above, below⟩

theorem frame {s next : Session K} (clean : s.Clean own text)
    (table : next.g.bHead = s.g.bHead) (memory : ∀ x ∈ text, next.w.mem x = s.w.mem x)
    (planted : s.planted ⊆ next.planted) : next.Clean own text where
  words := by
    rw [table]
    exact clean.words
  bytes x inText := by
    rw [memory x inText, enabledAddrs_congr table]
    exact (clean.bytes x inText).imp_right fun ⟨trap, enabled⟩ => ⟨planted trap, enabled⟩

theorem arm {g : GlobalState} {w : World K} {planted : List Nat}
    (clean : Session.Clean own text ⟨g, w, planted⟩) :
    Session.Clean own text ⟨g, armBreakpoints g w, g.enabledAddrs ++ planted⟩ where
  words := clean.words
  bytes x inText := by
    rw [armBreakpoints_eq]
    refine pokeAll_induct (motive := fun byte => byte = own x ∨ _) ?_ (.inr ?_)
    · rintro _ written covered
      obtain ⟨b, member, rfl⟩ := List.mem_map.mp written
      obtain ⟨inTable, enabled⟩ := List.mem_filter.mp member
      by_cases first : x = b.addr
      · have on : x ∈ g.enabledAddrs :=
          GlobalState.mem_enabledAddrs.mpr ⟨b, inTable, enabled, first.symm⟩
        exact .inr ⟨List.mem_append_left _ on, on⟩
      · exact .inl (clean.patched inTable inText covered first)
    · exact (clean.bytes x inText).imp_right fun ⟨trap, on⟩ => ⟨List.mem_append_right _ trap, on⟩

/-- The restore loop takes every trap byte out of memory. -/
theorem restore {g : GlobalState} {w : World K} {planted : List Nat}
    (clean : Session.Clean own text ⟨g, w, planted⟩) :
    ∀ x ∈ text, (restoreBreakpoints g w).mem x = own x := by
  intro x inText
  rw [restoreBreakpoints_eq]
  refine pokeAll_induct (motive := fun byte => byte = own x) ?_ ?_
  · rintro _ written covered
    obtain ⟨b, member, rfl⟩ := List.mem_map.mp written
    exact clean.words b (List.mem_filter.mp member).1 x inText covered
  · refine (clean.bytes x inText).symm.imp_left fun ⟨_, on⟩ => ?_
    obtain ⟨b, inTable, enabled, rfl⟩ := GlobalState.mem_enabledAddrs.mp on
    exact ⟨_, List.mem_map_of_mem (List.mem_filter.mpr ⟨inTable, enabled⟩),
      Nat.le_refl _, by omega⟩

theorem prepare (keeps : k.KeepsText text) {g : GlobalState} {w : World K} {planted : List Nat}
    (clean : Session.Clean own text ⟨g, w, planted⟩) :
    Session.Clean own text ⟨g, (prepareForRun k g w).2, g.enabledAddrs ++ planted⟩ := by
  obtain ⟨w', performed, gaveUp | ⟨status, -, done⟩⟩ := prepareForRun_spec (k := k) g w
  · rw [gaveUp]
    exact clean.frame rfl (performed.text keeps) (List.subset_append_right _ _)
  · rw [done]
    have steppedOver : Session.Clean own text ⟨g, w', planted⟩ :=
      clean.frame rfl (performed.text keeps) (List.Subset.refl _)
    exact steppedOver.arm

/-- One write of a word whose bytes are the program's own or traps. -/
theorem poke {s : Session K} (clean : s.Clean own text) {g : GlobalState} {planted : List Nat}
    {address : Nat} {word : Word}
    (words : ∀ b ∈ g.bHead, Spells own text b.addr b.instruction)
    (written : ∀ x ∈ text, Covers address x →
      byteOf word (x - address) = own x ∨ (x ∈ planted ∧ x ∈ g.enabledAddrs))
    (kept : ∀ x, ¬ Covers address x → x ∈ s.planted → x ∈ s.g.enabledAddrs →
      x ∈ planted ∧ x ∈ g.enabledAddrs) :
    Session.Clean own text ⟨g, s.w.pokedata address word, planted⟩ := by
  refine ⟨words, fun x inText => ?_⟩
  by_cases covered : Covers address x
  · have byte : (s.w.pokedata address word).mem x = byteOf word (x - address) :=
      pokeWord_inside covered
    simpa only [byte] using written x inText covered
  · have byte : (s.w.pokedata address word).mem x = s.w.mem x := pokeWord_outside covered
    simp only [byte]
    exact (clean.bytes x inText).imp_right fun ⟨trap, on⟩ => kept x covered trap on

/-- Registration writes every byte but the first back as it was. -/
theorem byteOf_registered (w : World K) {address x : Nat} (covered : Covers address x)
    (other : x ≠ address) :
    byteOf (installBreakpoint (w.peekdata address)) (x - address) = w.mem x := by
  obtain ⟨above, below⟩ := covered
  rw [byteOf_installBreakpoint_succ _ (by omega) (by omega), World.peekdata,
    byteOf_peekWord _ _ (by omega), Nat.add_sub_cancel' above]

theorem registerBreakpoint {s : Session K} (clean : s.Clean own text) {address : Nat}
    (captured : CleanCall own text s (.registerBreakpoint address)) :
    Session.Clean own text ⟨(registerBreakpoint s.g s.w address).1,
      (registerBreakpoint s.g s.w address).2, address :: s.planted⟩ := by
  -- in both cases the breakpoint is on afterwards, and so are those that were
  suffices h : ∀ g : GlobalState, (∀ x, x = address ∨ x ∈ s.g.enabledAddrs → x ∈ g.enabledAddrs) →
      (∀ b ∈ g.bHead, Spells own text b.addr b.instruction) →
      Session.Clean own text ⟨g, s.w.pokedata address (installBreakpoint (s.w.peekdata address)),
        address :: s.planted⟩ by
    rcases registerBreakpoint_cases s.g s.w address with
      ⟨b, found, done⟩ | ⟨b, absent, atAddr, word, enabled, done⟩ <;> rw [done]
    · refine h _ (fun x on => ?_) (forall_setEnabled clean.words)
      by_cases first : x = address
      · subst first
        exact mem_enabledAddrs_setEnabled_self rfl found
      · exact mem_enabledAddrs_setEnabled_other rfl first (on.resolve_left first)
    · refine h _ (fun x on => ?_) fun entry member x inText covered => ?_
      · rw [← atAddr] at on
        exact (mem_enabledAddrs_insert rfl enabled).mpr on
      · rcases mem_insertBreakpoint.mp member with rfl | old
        · have spelled : byteOf entry.instruction (x - entry.addr) = s.w.mem x := by
            obtain ⟨above, below⟩ := covered
            rw [word, atAddr, World.peekdata, byteOf_peekWord _ _ (by omega)]
            congr 1
            omega
          rw [spelled]
          by_cases first : x = address
          · refine (clean.bytes x inText).resolve_right fun ⟨_, on⟩ => ?_
            obtain ⟨b, inTable, -, same⟩ := GlobalState.mem_enabledAddrs.mp on
            exact findEntry_none.mp absent b inTable (same.trans first)
          · obtain ⟨above, below⟩ := covered
            exact captured absent x inText (by omega) (by omega)
        · exact clean.words entry old x inText covered
  intro g on words
  refine clean.poke words (fun x inText covered => ?_) fun x _ trap enabled =>
    ⟨List.mem_cons_of_mem _ trap, on x (.inr enabled)⟩
  by_cases first : x = address
  · exact .inr ⟨first ▸ List.mem_cons_self, on x (.inl first)⟩
  · rw [byteOf_registered s.w covered first]
    exact (clean.bytes x inText).imp_right fun ⟨trap, enabled⟩ =>
      ⟨List.mem_cons_of_mem _ trap, on x (.inr enabled)⟩

theorem enableBreakpoint {s : Session K} (clean : s.Clean own text) {address : Nat}
    {b : SoftwareBreakpoint} (found : findEntry address s.g.bHead = some b) :
    Session.Clean own text ⟨{ s.g with bHead := setEnabled address true s.g.bHead },
      s.w.pokedata address b.patchedInstruction, address :: overwrite address s.planted⟩ := by
  obtain ⟨inTable, rfl⟩ := findEntry_some found
  refine clean.poke (forall_setEnabled clean.words) (fun x inText covered => ?_)
    fun x uncovered trap enabled => ?_
  · by_cases first : x = b.addr
    · subst first
      exact .inr ⟨List.mem_cons_self, mem_enabledAddrs_setEnabled_self rfl found⟩
    · exact .inl (clean.patched inTable inText covered first)
  · have other : x ≠ b.addr := by
      rintro rfl
      exact uncovered ⟨Nat.le_refl _, by omega⟩
    exact ⟨List.mem_cons_of_mem _ (mem_overwrite.mpr ⟨trap, uncovered⟩),
      mem_enabledAddrs_setEnabled_other rfl other enabled⟩

theorem disableBreakpoint {s : Session K} (clean : s.Clean own text) {address : Nat}
    {b : SoftwareBreakpoint} (found : findEntry address s.g.bHead = some b) :
    Session.Clean own text ⟨{ s.g with bHead := setEnabled address false s.g.bHead },
      s.w.pokedata address b.instruction, overwrite address s.planted⟩ := by
  obtain ⟨inTable, rfl⟩ := findEntry_some found
  refine clean.poke (forall_setEnabled clean.words) (fun x inText covered => ?_)
    fun x uncovered trap enabled => ?_
  · exact .inl (clean.words b inTable x inText covered)
  · have other : x ≠ b.addr := by
      rintro rfl
      exact uncovered ⟨Nat.le_refl _, by omega⟩
    exact ⟨mem_overwrite.mpr ⟨trap, uncovered⟩,
      mem_enabledAddrs_setEnabled_other rfl other enabled⟩

theorem call (keeps : k.KeepsText text) {s next : Session K} (clean : s.Clean own text)
    {call : Call} (careful : CleanCall own text s call)
    (called : s.call k pid call = some next) : next.Clean own text := by
  cases call with
  | registerThread tid =>
      cases called
      refine clean.frame ?_ (fun _ _ => rfl) (List.Subset.refl _)
      simp only [registerThread]
      split <;> simp
  | unregisterThread tid =>
      cases called
      refine clean.frame ?_ (fun _ _ => rfl) (List.Subset.refl _)
      simp only [unregisterThread]
      split <;> rfl
  | registerBreakpoint address =>
      cases called
      exact clean.registerBreakpoint careful
  | unregisterBreakpoint address =>
      cases called
      refine ⟨fun b member => clean.words b ((removeEntry_sublist address _).subset member),
        fun x inText => ?_⟩
      by_cases first : x = address
      · subst first
        exact .inl (careful inText)
      · exact (clean.bytes x inText).imp_right <|
          And.imp_right (mem_enabledAddrs_removeEntry_other rfl first)
  | enableBreakpoint address =>
      obtain ⟨⟨g, w⟩, switched, rfl⟩ := Option.map_eq_some_iff.mp called
      rcases enableBreakpoint_cases switched with ⟨absent, rfl, rfl⟩ | ⟨b, found, rfl, rfl⟩
      · simpa [absent] using clean
      · simpa [found] using clean.enableBreakpoint found
  | disableBreakpoint address =>
      obtain ⟨⟨g, w⟩, switched, rfl⟩ := Option.map_eq_some_iff.mp called
      rcases disableBreakpoint_cases switched with ⟨absent, rfl, rfl⟩ | ⟨b, found, rfl, rfl⟩
      · simpa [absent] using clean
      · simpa [found] using clean.disableBreakpoint found
  | freeBreakpoints =>
      cases called
      exact ⟨fun _ member => by simp [freeBreakpoints] at member,
        fun x inText => .inl (careful x inText)⟩
  | writeRegs | forward =>
      cases called
      exact clean.frame rfl (fun _ _ => rfl) (List.Subset.refl _)
  | ptracePokedata addr data =>
      cases called
      exact clean.poke clean.words (fun x inText covered => .inl (careful x inText covered))
        fun _ _ trap on => ⟨trap, on⟩
  | singlestep tid =>
      obtain ⟨signal, w, done, performed⟩ := singlestep_spec (k := k) s.g s.w tid
      simp only [Session.call, done] at called
      cases called
      exact clean.frame rfl (performed.text keeps) (List.Subset.refl _)
  | stepUntil fuel tid addr maxSteps =>
      have performed := stepUntil_performs (k := k) fuel s.g s.w tid addr maxSteps
      simp only [Session.call] at called
      split at called <;> cases called
      rename_i result
      rw [result] at performed
      exact clean.frame performed.bHead (performed.text keeps) (List.Subset.refl _)
  | contAllAndSetBps =>
      cases called
      exact (clean.prepare keeps).frame rfl ((resumeLoop_performs _ _ s.g _).text keeps)
        (List.Subset.refl _)
  | steppingFinish fuel tid =>
      obtain ⟨g, w, performed, done⟩ := steppingFinish_spec (k := k) fuel s.g s.w tid
      have stepped : Session.Clean own text ⟨g, w, s.g.enabledAddrs ++ s.planted⟩ :=
        (clean.prepare keeps).frame performed.bHead (performed.text keeps) (List.Subset.refl _)
      rcases done with done | done | done <;> simp only [Session.call, done] at called <;>
        cases called
      · exact stepped
      · exact ⟨stepped.words, fun x inText => .inl (stepped.restore x inText)⟩
  | waitAllAndUpdateRegs fuel =>
      obtain ⟨g, w, performed, done⟩ := waitAllAndUpdateRegs_spec (k := k) fuel s.g s.w pid
      have collected : Session.Clean own text ⟨g, w, s.planted⟩ :=
        clean.frame performed.bHead (performed.text keeps) (List.Subset.refl _)
      rcases done with done | done | ⟨list, done⟩ <;> simp only [Session.call, done] at called <;>
        cases called
      · exact collected
      · exact ⟨collected.words, fun x inText => .inl (collected.restore x inText)⟩

end Session.Clean

/-- No trap is found where no breakpoint is switched on: not once the breakpoints
are armed, and none at all once they are restored. -/
def NoGhostTraps (k : Kernel K) (pid : Int) (own : Memory) (text : Set Nat)
    (s : Session K) : Prop :=
  (0 ≤ (prepareForRun k s.g s.w).1 →
    ∀ x ∈ text, x ∉ s.g.enabledAddrs → (prepareForRun k s.g s.w).2.mem x = own x) ∧
  ∀ fuel list g w, waitAllAndUpdateRegs k fuel s.g s.w pid = (.statuses list, g, w) →
    ∀ x ∈ text, w.mem x = own x

theorem Session.Clean.noGhostTraps (keeps : k.KeepsText text) {s : Session K}
    (clean : s.Clean own text) : NoGhostTraps k pid own text s := by
  constructor
  · intro _ x inText off
    exact ((clean.prepare keeps).bytes x inText).resolve_right fun ⟨_, on⟩ => off on
  · intro fuel list g w waited x inText
    obtain ⟨g', w', performed, done⟩ := waitAllAndUpdateRegs_spec (k := k) fuel s.g s.w pid
    have collected : Session.Clean own text ⟨g', w', s.planted⟩ :=
      clean.frame performed.bHead (performed.text keeps) (List.Subset.refl _)
    rcases done with done | done | ⟨_, done⟩ <;> rw [done] at waited <;> cases waited
    exact collected.restore x inText

/-- In every state reached by careful calls from clean text and an empty table. -/
theorem session_clean (keeps : k.KeepsText text) {s₀ s : Session K} {calls : List Call}
    (start : s₀.g.bHead = []) (pristine : ∀ x ∈ text, s₀.w.mem x = own x)
    (careful : (session k pid).Meets (CleanCall own text) s₀ calls)
    (reached : (session k pid).run s₀ calls = some s) : s.Clean own text :=
  Machine.run_invariant (motive := fun s => s.Clean own text)
    (fun _ _ _ clean careful called => clean.call keeps careful called)
    ⟨by simp [start], fun x inText => .inl (pristine x inText)⟩ careful reached

end Libdebug.Cffi
