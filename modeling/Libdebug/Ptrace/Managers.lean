import Libdebug.Ptrace.HardwareBreakpoints

/-!
What installing and removing a hardware breakpoint does to the managers.

Only the manager of the thread changes, and the user area of the thread. A manager holds
the breakpoints in its registers; installing one adds it to them, removing one takes a
breakpoint with the same fields away.
-/

namespace Libdebug.Ptrace

open Libdebug.Foundation Libdebug.Cffi

namespace DebugReg

theorem mem_all (register : DebugReg) : register ∈ all := by cases register <;> decide

theorem nodup_all : all.Nodup := by decide

end DebugReg

/-- The breakpoints in a list of registers, in their order. -/
def heldIn (registers : List DebugReg) (breakpointRegisters : DebugReg → Option Ref) : List Ref :=
  registers.filterMap breakpointRegisters

def HardwareBreakpointManager.held (helper : HardwareBreakpointManager) : List Ref :=
  heldIn DebugReg.all helper.breakpointRegisters

section Registers

variable {breakpointRegisters : DebugReg → Option Ref} {register : DebugReg} {bp : Ref}

theorem heldIn_update_of_notMem {registers : List DebugReg} (absent : register ∉ registers)
    (value : Option Ref) :
    heldIn registers (Function.update breakpointRegisters register value) =
      heldIn registers breakpointRegisters :=
  List.filterMap_congr fun other member =>
    Function.update_of_ne (fun same => absent (by rwa [← same])) _ _

/-- A breakpoint put in an empty register is held besides the others. -/
theorem heldIn_update {registers : List DebugReg} (distinct : registers.Nodup)
    (member : register ∈ registers) (empty : breakpointRegisters register = none) :
    (heldIn registers (Function.update breakpointRegisters register (some bp))).Perm
      (bp :: heldIn registers breakpointRegisters) := by
  induction registers with
  | nil => simp at member
  | cons first rest ih =>
      obtain ⟨absent, distinct⟩ := List.nodup_cons.mp distinct
      by_cases here : register = first
      · subst here
        have others : heldIn rest (Function.update breakpointRegisters register (some bp)) =
            heldIn rest breakpointRegisters := heldIn_update_of_notMem absent (some bp)
        simp only [heldIn] at others
        simp [heldIn, empty, others]
      · have later := ih distinct ((List.mem_cons.mp member).resolve_left here)
        simp only [heldIn, List.filterMap_cons, Function.update_of_ne (Ne.symm here)] at later ⊢
        cases breakpointRegisters first with
        | none => exact later
        | some other => exact (later.cons other).trans (.swap bp other _)

theorem held_length_le (helper : HardwareBreakpointManager) : helper.held.length ≤ dbregsCount :=
  List.length_filterMap_le _ _

theorem held_installed {helper : HardwareBreakpointManager}
    (empty : helper.breakpointRegisters register = none) (count : Nat) :
    (HardwareBreakpointManager.mk count
      (Function.update helper.breakpointRegisters register (some bp))).held.Perm
        (bp :: helper.held) :=
  heldIn_update DebugReg.nodup_all register.mem_all empty

theorem held_removed {helper : HardwareBreakpointManager}
    (found : helper.breakpointRegisters register = some bp) (count : Nat) :
    helper.held.Perm (bp :: (HardwareBreakpointManager.mk count
      (Function.update helper.breakpointRegisters register none)).held) := by
  set removed := HardwareBreakpointManager.mk count
    (Function.update helper.breakpointRegisters register none) with without
  have empty : removed.breakpointRegisters register = none := Function.update_self ..
  have back : (HardwareBreakpointManager.mk count
      (Function.update removed.breakpointRegisters register (some bp))).held.Perm
        (bp :: removed.held) := held_installed empty count
  rw [without, Function.update_idem, ← found, Function.update_eq_self] at back
  exact back

/-- A register is free as long as not all four are in use. -/
theorem exists_free {helper : HardwareBreakpointManager} (room : helper.held.length < dbregsCount) :
    ∃ register, DebugReg.all.find? (fun register => helper.breakpointRegisters register = none) =
      some register := by
  by_contra full
  have taken : ∀ register ∈ DebugReg.all, helper.breakpointRegisters register ≠ none := by
    simpa using List.find?_eq_none.mp (Option.eq_none_iff_forall_ne_some.mpr (not_exists.mp full))
  have all : helper.held.length = DebugReg.all.length :=
    List.filterMap_length_eq_length.mpr fun register member =>
      Option.isSome_iff_ne_none.mpr (taken register member)
  rw [all] at room
  exact absurd room (by decide)

end Registers

variable {K : Type} {k : Kernel K} {s t : Debugger K}

/-- The state with other managers, and another state of the kernel. -/
def Debugger.withHelpers (s : Debugger K) (os : K) (helpers : Dict Int HardwareBreakpointManager) :
    Debugger K :=
  { s with world := { s.world with os }, hardwareBpHelpers := helpers }

/-- The two states differ in the managers and in the kernel only. -/
def OnlyManagers (s t : Debugger K) : Prop := ∃ os helpers, t = s.withHelpers os helpers

instance : IsPreorder (Debugger K) OnlyManagers where
  refl s := ⟨s.world.os, s.hardwareBpHelpers, rfl⟩
  trans _ _ _ first second := by
    obtain ⟨_, _, rfl⟩ := first
    obtain ⟨os, helpers, rfl⟩ := second
    exact ⟨os, helpers, rfl⟩

/-! ### Reading and writing the user area -/

/-- `PTRACE_PEEKUSER` succeeds on a thread that is stopped. -/
def ReadsUserArea (k : Kernel K) : Prop :=
  ∀ os threadId address, (k.peekuser os threadId address).isSome

theorem getHelper_ok {threadId : Int} {helper : HardwareBreakpointManager}
    (returned : (getHelper threadId).run s = .ok helper t) :
    s.hardwareBpHelpers.get? threadId = some helper ∧ s = t := by
  obtain ⟨_, _, read, returned⟩ := ok_of_bind returned
  cases read
  split at returned
  · rename_i found
    cases returned
    exact ⟨found, rfl⟩
  · cases returned

theorem availableBreakpoints_ok {threadId : Int} {available : Nat}
    (returned : (availableBreakpoints threadId).run s = .ok available t) : s = t := by
  obtain ⟨helper, _, got, returned⟩ := ok_of_bind returned
  cases returned
  exact (getHelper_ok got).2

theorem run_getHelper {threadId : Int} {helper : HardwareBreakpointManager}
    (found : s.hardwareBpHelpers.get? threadId = some helper) :
    (getHelper threadId).run s = .ok helper s := by
  simp only [getHelper, EStateM.run_bind, EStateM.run_get, found]
  rfl

theorem peekUser_ok {threadId : Int} {address value : Nat}
    (returned : (peekUser k threadId address).run s = .ok value t) : s = t := by
  obtain ⟨_, _, read, returned⟩ := ok_of_bind returned
  cases read
  split at returned <;> cases returned
  rfl

theorem run_peekUser (reads : ReadsUserArea k) (threadId : Int) (address : Nat)
    (s : Debugger K) : ∃ value, (peekUser k threadId address).run s = .ok value s := by
  obtain ⟨value, read⟩ := Option.isSome_iff_exists.mp (reads s.world.os threadId address)
  refine ⟨value, ?_⟩
  simp only [peekUser, EStateM.run_bind, EStateM.run_get, read]
  rfl

theorem run_pokeUser (k : Kernel K) (threadId : Int) (address value : Nat) (s : Debugger K) :
    ∃ os, (pokeUser k threadId address value).run s =
      .ok () (s.withHelpers os s.hardwareBpHelpers) := by
  simp only [pokeUser, EStateM.run_modify]
  split
  · exact ⟨_, rfl⟩
  · exact ⟨s.world.os, rfl⟩

section Keeping

variable {R : Debugger K → Debugger K → Prop} [IsPreorder (Debugger K) R]

theorem getHelper_keeps (threadId : Int) :
    Keeps R (getHelper threadId : Py K HardwareBreakpointManager) := by
  refine Keeps.get.bind fun s => ?_
  split
  · exact Keeps.pure _
  · exact Keeps.throw _

theorem peekUser_keeps (threadId : Int) (address : Nat) :
    Keeps R (peekUser k threadId address) := by
  refine Keeps.get.bind fun s => ?_
  split
  · exact Keeps.pure _
  · exact Keeps.throw _

end Keeping

theorem pokeUser_keeps {R : Debugger K → Debugger K → Prop}
    (writes : ∀ s os, R s (s.withHelpers os s.hardwareBpHelpers))
    (threadId : Int) (address value : Nat) :
    Keeps R (pokeUser k threadId address value) := fun s => by
  obtain ⟨os, written⟩ := run_pokeUser k threadId address value s
  rw [stateAfter_of_ok written]
  exact writes s os

theorem installBreakpoint_onlyManagers (threadId : Int) (bp : Ref) :
    Keeps OnlyManagers (installBreakpoint k threadId bp) := by
  refine (getHelper_keeps _).bind fun helper => Keeps.get.bind fun s => ?_
  refine Keeps.ite (fun _ => Keeps.throw _) fun _ => ?_
  split
  · exact Keeps.throw _
  · refine (pokeUser_keeps (fun _ os => ⟨os, _, rfl⟩) _ _ _).bind fun _ => ?_
    split
    · exact (peekUser_keeps _ _).bind fun _ =>
        (pokeUser_keeps (fun _ os => ⟨os, _, rfl⟩) _ _ _).bind fun _ =>
          Keeps.modify fun s => ⟨s.world.os, _, rfl⟩
    · exact Keeps.throw _

theorem removeBreakpoint_onlyManagers (threadId : Int) (bp : Ref) :
    Keeps OnlyManagers (removeBreakpoint k threadId bp) := by
  refine (getHelper_keeps _).bind fun helper => Keeps.get.bind fun s => ?_
  refine Keeps.ite (fun _ => Keeps.throw _) fun _ => ?_
  split
  · exact Keeps.throw _
  · exact (pokeUser_keeps (fun _ os => ⟨os, _, rfl⟩) _ _ _).bind fun _ =>
      (peekUser_keeps _ _).bind fun _ =>
        (pokeUser_keeps (fun _ os => ⟨os, _, rfl⟩) _ _ _).bind fun _ =>
          Keeps.modify fun s => ⟨s.world.os, _, rfl⟩

/-! ### Installing and removing -/

/-- What `install_breakpoint` needs to succeed. -/
structure Installable (helper : HardwareBreakpointManager) (bp : Breakpoint) : Prop where
  counted : helper.breakpointCount < dbregsCount
  room : helper.held.length < dbregsCount
  condition : (ctrlCondVal bp.condition).isSome
  length : (ctrlLenVal bp.length).isSome

/-- The manager has one breakpoint more. -/
def Installed (bp : Ref) (before after : HardwareBreakpointManager) : Prop :=
  after.breakpointCount = before.breakpointCount + 1 ∧ after.held.Perm (bp :: before.held)

/-- The manager has one breakpoint fewer, equal to the given one. -/
def Removed (objects : Ref → Breakpoint) (bp : Ref) (before after : HardwareBreakpointManager) :
    Prop :=
  after.breakpointCount = before.breakpointCount - 1 ∧
    ∃ installed, objects installed = objects bp ∧ before.held.Perm (installed :: after.held)

/-- In the two states the manager of one thread is before and after a step, and the others
are the same. -/
def ChangesManager (rel : HardwareBreakpointManager → HardwareBreakpointManager → Prop)
    (threadId : Int) (s t : Debugger K) : Prop :=
  ∃ os helper f, s.hardwareBpHelpers.get? threadId = some helper ∧ rel helper (f helper) ∧
    t = s.withHelpers os (s.hardwareBpHelpers.modify threadId f)

theorem installBreakpoint_ok {threadId : Int} {bp : Ref}
    (returned : (installBreakpoint k threadId bp).run s = .ok () t) :
    ChangesManager (fun before after => Installable before (s.objects bp) ∧
      Installed bp before after) threadId s t := by
  obtain ⟨helper, _, got, afterGet⟩ := ok_of_bind returned
  obtain ⟨found, rfl⟩ := getHelper_ok got
  obtain ⟨_, _, read, afterRead⟩ := ok_of_bind afterGet
  cases read
  dsimp only at afterRead
  split at afterRead
  · cases afterRead
  · rename_i counted
    split at afterRead
    · cases afterRead
    · rename_i register free
      have empty : helper.breakpointRegisters register = none := by simpa using List.find?_some free
      obtain ⟨_, _, poked, afterPoke⟩ := ok_of_bind afterRead
      obtain ⟨os, written⟩ := run_pokeUser k threadId register.offset (s.objects bp).address s
      rw [written] at poked
      cases poked
      split at afterPoke
      · rename_i cond len condition length
        obtain ⟨ctrl, _, peeked, afterPeek⟩ := ok_of_bind afterPoke
        obtain rfl := peekUser_ok peeked
        obtain ⟨_, _, poked, afterControl⟩ := ok_of_bind afterPeek
        obtain ⟨os', control⟩ := run_pokeUser k threadId dr7Offset (clearBits (clearBits ctrl
          (0x3 <<< register.ctrlCond)) (0x3 <<< register.ctrlLen) ||| (register.ctrlLocal |||
          (cond <<< register.ctrlCond) ||| (len <<< register.ctrlLen)))
          (s.withHelpers os s.hardwareBpHelpers)
        rw [control] at poked
        cases poked
        cases afterControl
        refine ⟨os', helper, _, found, ⟨⟨not_le.mp counted, ?_, by simp [condition],
          by simp [length]⟩, rfl, held_installed empty _⟩, rfl⟩
        have more : (HardwareBreakpointManager.mk 0
            (Function.update helper.breakpointRegisters register (some bp))).held.Perm
              (bp :: helper.held) := held_installed empty 0
        calc helper.held.length + 1 = _ := more.length_eq.symm
          _ ≤ dbregsCount := held_length_le _
      · cases afterPoke

/-- The managers change in the last step only, which does not raise. -/
theorem installBreakpoint_raises (threadId : Int) (bp : Ref) :
    Raises (Same (·.hardwareBpHelpers)) (installBreakpoint k threadId bp) := by
  refine Raises.bind (getHelper_keeps _) fun helper => Raises.bind Keeps.get fun s => ?_
  refine Raises.ite (fun _ => .of_keeps (Keeps.throw _)) fun _ => ?_
  split
  · exact .of_keeps (Keeps.throw _)
  · refine Raises.bind (pokeUser_keeps (fun _ _ => rfl) _ _ _) fun _ => ?_
    split
    · exact Raises.bind (peekUser_keeps _ _) fun _ =>
        Raises.bind (pokeUser_keeps (fun _ _ => rfl) _ _ _) fun _ => .modify _
    · exact .of_keeps (Keeps.throw _)

theorem installBreakpoint_returns (reads : ReadsUserArea k) {threadId : Int} {bp : Ref}
    {helper : HardwareBreakpointManager} (found : s.hardwareBpHelpers.get? threadId = some helper)
    (installable : Installable helper (s.objects bp)) :
    ∃ t, (installBreakpoint k threadId bp).run s = .ok () t := by
  obtain ⟨register, free⟩ := exists_free installable.room
  obtain ⟨cond, condition⟩ := Option.isSome_iff_exists.mp installable.condition
  obtain ⟨len, length⟩ := Option.isSome_iff_exists.mp installable.length
  obtain ⟨os, written⟩ := run_pokeUser k threadId register.offset (s.objects bp).address s
  obtain ⟨ctrl, peeked⟩ := run_peekUser reads threadId dr7Offset
    (s.withHelpers os s.hardwareBpHelpers)
  obtain ⟨os', control⟩ := run_pokeUser k threadId dr7Offset (clearBits (clearBits ctrl
    (0x3 <<< register.ctrlCond)) (0x3 <<< register.ctrlLen) ||| (register.ctrlLocal |||
    (cond <<< register.ctrlCond) ||| (len <<< register.ctrlLen)))
    (s.withHelpers os s.hardwareBpHelpers)
  have counted : ¬ helper.breakpointCount ≥ dbregsCount := not_le.mpr installable.counted
  simp only [installBreakpoint, EStateM.run_bind, run_getHelper found, EStateM.run_get, counted,
    if_false, free, written, condition, length, peeked, control, EStateM.run_modify]
  exact ⟨_, rfl⟩

theorem removeBreakpoint_ok {threadId : Int} {bp : Ref}
    (returned : (removeBreakpoint k threadId bp).run s = .ok () t) :
    ChangesManager (Removed s.objects bp) threadId s t := by
  obtain ⟨helper, _, got, afterGet⟩ := ok_of_bind returned
  obtain ⟨found, rfl⟩ := getHelper_ok got
  obtain ⟨_, _, read, afterRead⟩ := ok_of_bind afterGet
  cases read
  split at afterRead
  · cases afterRead
  · split at afterRead
    · cases afterRead
    · rename_i register holds
      have equal := List.find?_some holds
      split at equal
      · rename_i installed there
        obtain ⟨_, _, poked, afterPoke⟩ := ok_of_bind afterRead
        obtain ⟨os, written⟩ := run_pokeUser k threadId register.offset 0 s
        rw [written] at poked
        cases poked
        obtain ⟨ctrl, _, peeked, afterPeek⟩ := ok_of_bind afterPoke
        obtain rfl := peekUser_ok peeked
        obtain ⟨_, _, poked, afterControl⟩ := ok_of_bind afterPeek
        obtain ⟨os', control⟩ := run_pokeUser k threadId dr7Offset
          (clearBits ctrl register.ctrlLocal) (s.withHelpers os s.hardwareBpHelpers)
        rw [control] at poked
        cases poked
        cases afterControl
        exact ⟨os', helper, _, found, ⟨rfl, installed, of_decide_eq_true equal,
          held_removed there _⟩,
          rfl⟩
      · cases equal

/-! ### One step for every manager -/

section Loop

variable {rel : HardwareBreakpointManager → HardwareBreakpointManager → Prop}

/-- A loop over distinct threads changes the manager of each once. -/
theorem forM_managers {f : Int → Py K Unit} {objects : Ref → Breakpoint}
    (step : ∀ s t threadId, s.objects = objects → (f threadId).run s = .ok () t →
      ChangesManager rel threadId s t)
    {threadIds : List Int} (distinct : threadIds.Nodup) (same : s.objects = objects)
    (returned : (threadIds.forM f).run s = .ok () t) :
    ∃ os helpers, t = s.withHelpers os helpers ∧
      ∀ threadId after, helpers.get? threadId = some after →
      ∃ before, s.hardwareBpHelpers.get? threadId = some before ∧
        if threadId ∈ threadIds then rel before after else after = before := by
  induction threadIds generalizing s with
  | nil =>
      cases returned
      exact ⟨_, _, rfl, fun threadId after found => ⟨after, found, by simp⟩⟩
  | cons first rest ih =>
      obtain ⟨absent, distinct⟩ := List.nodup_cons.mp distinct
      obtain ⟨_, r, here, later⟩ := ok_of_bind returned
      obtain ⟨os, helper, g, found, related, rfl⟩ := step s r first same here
      obtain ⟨os', helpers, rfl, known⟩ :=
        ih (s := s.withHelpers os (s.hardwareBpHelpers.modify first g)) distinct same later
      refine ⟨os', helpers, rfl, fun threadId after there => ?_⟩
      obtain ⟨before, earlier, ended⟩ := known threadId after there
      simp only [Debugger.withHelpers, Dict.get?_modify] at earlier
      by_cases own : threadId = first
      · subst own
        rw [if_pos rfl, found] at earlier
        cases earlier
        rw [if_neg absent] at ended
        exact ⟨helper, found, by simpa [ended] using related⟩
      · rw [if_neg own] at earlier
        exact ⟨before, earlier, by simpa [own] using ended⟩

end Loop

end Libdebug.Ptrace
