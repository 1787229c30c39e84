import Libdebug.Foundation.BitFields
import Libdebug.Foundation.Runs
import Libdebug.Ptrace.FailedWrites

/-!
The debug registers of a thread and the table that its manager keeps of them. `DR7` has one
enable bit and two fields of two bits for each register; an installation writes the three, a
removal clears the bit and leaves the fields for the next installation to overwrite.
-/

namespace Libdebug.Ptrace

open Libdebug.Foundation Libdebug.Cffi

/-! ### The control register -/

namespace DebugReg

/-- The position of the local enable bit -/
def localBit : DebugReg → Nat
  | dr0 => 0
  | dr1 => 2
  | dr2 => 4
  | dr3 => 6

/-- The bits of `DR7` that are a register's own: its local enable bit, its condition and its
length -/
def Owns (register : DebugReg) (bit : Nat) : Prop :=
  bit = register.localBit ∨ (register.ctrlCond ≤ bit ∧ bit < register.ctrlLen + 2)

theorem ctrlLocal_eq (register : DebugReg) : register.ctrlLocal = 1 <<< register.localBit := by
  cases register <;> rfl

theorem ctrlLen_eq (register : DebugReg) : register.ctrlLen = register.ctrlCond + 2 := by
  cases register <;> rfl

theorem localBit_lt (register : DebugReg) : register.localBit < register.ctrlCond := by
  cases register <;> decide

theorem offset_ne_dr7 (register : DebugReg) : register.offset ≠ dr7Offset := by
  cases register <;> decide

theorem offset_injective : Function.Injective offset := by
  intro register other same
  cases register <;> cases other <;> first | rfl | cases same

theorem owns_localBit (register : DebugReg) : register.Owns register.localBit := .inl rfl

/-- No bit belongs to two registers. -/
theorem Owns.eq {register other : DebugReg} {bit : Nat} (owned : register.Owns bit)
    (also : other.Owns bit) : register = other := by
  unfold Owns at owned also
  cases register <;> cases other <;>
    simp only [localBit, ctrlCond, ctrlLen] at owned also <;> first | rfl | omega

end DebugReg

variable {register : DebugReg} {ctrl cond len : Nat}

theorem testBit_clearBits (value mask bit : Nat) :
    (clearBits value mask).testBit bit = (value.testBit bit && !mask.testBit bit) :=
  testBit_maskedOut value mask bit

/-- The control register bit by bit, after an installation -/
theorem testBit_controlWith (condition : cond < 4) (length : len < 4) (bit : Nat) :
    (controlWith register ctrl cond len).testBit bit =
      (ctrl.testBit bit &&
          !decide (register.ctrlCond ≤ bit ∧ bit < register.ctrlCond + 2) &&
          !decide (register.ctrlLen ≤ bit ∧ bit < register.ctrlLen + 2) ||
        (decide (register.localBit = bit) ||
          decide (register.ctrlCond ≤ bit ∧ bit < register.ctrlCond + 2) &&
            cond.testBit (bit - register.ctrlCond) ||
          decide (register.ctrlLen ≤ bit ∧ bit < register.ctrlLen + 2) &&
            len.testBit (bit - register.ctrlLen))) := by
  have ones : ∀ shift, (0x3 <<< shift).testBit bit = decide (shift ≤ bit ∧ bit < shift + 2) := by
    intro shift
    rw [testBit_shifted (show 3 < 2 ^ 2 by decide)]
    by_cases inside : shift ≤ bit ∧ bit < shift + 2
    · obtain first | second : bit - shift = 0 ∨ bit - shift = 1 := by omega
      · rw [first, decide_eq_true inside]
        rfl
      · rw [second, decide_eq_true inside]
        rfl
    · rw [decide_eq_false inside, Bool.false_and]
  rw [controlWith, Nat.testBit_or, Nat.testBit_or, Nat.testBit_or, testBit_clearBits,
    testBit_clearBits, ones, ones, register.ctrlLocal_eq, Nat.one_shiftLeft, Nat.testBit_two_pow,
    testBit_shifted (show cond < 2 ^ 2 from condition),
    testBit_shifted (show len < 2 ^ 2 from length)]

/-- An installation keeps the bits that are not the register's own. -/
theorem controlWith_outside (condition : cond < 4) (length : len < 4) {bit : Nat}
    (outside : ¬ register.Owns bit) :
    (controlWith register ctrl cond len).testBit bit = ctrl.testBit bit := by
  obtain ⟨other, beside⟩ := not_or.mp outside
  have after := register.ctrlLen_eq
  have noCond : ¬ (register.ctrlCond ≤ bit ∧ bit < register.ctrlCond + 2) := by omega
  have noLen : ¬ (register.ctrlLen ≤ bit ∧ bit < register.ctrlLen + 2) := by omega
  rw [testBit_controlWith condition length, decide_eq_false noCond, decide_eq_false noLen,
    decide_eq_false (Ne.symm other)]
  simp

theorem controlWith_enables (condition : cond < 4) (length : len < 4) :
    (controlWith register ctrl cond len).testBit register.localBit = true := by
  rw [testBit_controlWith condition length, decide_eq_true rfl]
  simp

theorem controlWith_condition (condition : cond < 4) (length : len < 4) :
    bitField (controlWith register ctrl cond len) register.ctrlCond 2 = cond := by
  apply bitField_eq condition
  intro bit inside
  have after := register.ctrlLen_eq
  have before := register.localBit_lt
  have here : register.ctrlCond ≤ register.ctrlCond + bit ∧
      register.ctrlCond + bit < register.ctrlCond + 2 := by omega
  have noLen : ¬ (register.ctrlLen ≤ register.ctrlCond + bit ∧
      register.ctrlCond + bit < register.ctrlLen + 2) := by omega
  have noLocal : ¬ register.localBit = register.ctrlCond + bit := by omega
  rw [testBit_controlWith condition length, decide_eq_true here, decide_eq_false noLen,
    decide_eq_false noLocal, Nat.add_sub_cancel_left]
  simp

theorem controlWith_length (condition : cond < 4) (length : len < 4) :
    bitField (controlWith register ctrl cond len) register.ctrlLen 2 = len := by
  apply bitField_eq length
  intro bit inside
  have after := register.ctrlLen_eq
  have before := register.localBit_lt
  have here : register.ctrlLen ≤ register.ctrlLen + bit ∧
      register.ctrlLen + bit < register.ctrlLen + 2 := by omega
  have noCond : ¬ (register.ctrlCond ≤ register.ctrlLen + bit ∧
      register.ctrlLen + bit < register.ctrlCond + 2) := by omega
  have noLocal : ¬ register.localBit = register.ctrlLen + bit := by omega
  rw [testBit_controlWith condition length, decide_eq_true here, decide_eq_false noCond,
    decide_eq_false noLocal, Nat.add_sub_cancel_left]
  simp

/-- A removal clears the local enable bit only. -/
theorem testBit_disabled (register : DebugReg) (ctrl bit : Nat) :
    (clearBits ctrl register.ctrlLocal).testBit bit =
      (ctrl.testBit bit && !decide (register.localBit = bit)) := by
  rw [testBit_clearBits, register.ctrlLocal_eq, Nat.one_shiftLeft, Nat.testBit_two_pow]

/-! ### What the processor makes of the fields -/

/-- The condition that a field stands for -/
def conditionOf : Nat → Option String
  | 0 => some "x"
  | 1 => some "w"
  | 3 => some "rw"
  | _ => none

/-- The length that a field stands for -/
def lengthOf : Nat → Option Nat
  | 0 => some 1
  | 1 => some 2
  | 2 => some 8
  | 3 => some 4
  | _ => none

theorem conditionOf_ctrlCondVal {condition : Option String}
    (valid : ctrlCondVal condition = some cond) : cond < 4 ∧ conditionOf cond = condition := by
  unfold ctrlCondVal at valid
  split at valid <;> cases valid <;> exact ⟨by decide, rfl⟩

theorem lengthOf_ctrlLenVal {length : Nat} (valid : ctrlLenVal length = some len) :
    len < 4 ∧ lengthOf len = some length := by
  unfold ctrlLenVal at valid
  split at valid <;> cases valid <;> exact ⟨by decide, rfl⟩

/-- The user area of a thread has a breakpoint in a register. -/
structure Armed (area : Nat → Nat) (register : DebugReg) (bp : Breakpoint) : Prop where
  address : area register.offset = bp.address
  condition : conditionOf (bitField (area dr7Offset) register.ctrlCond 2) = bp.condition
  length : lengthOf (bitField (area dr7Offset) register.ctrlLen 2) = some bp.length

/-- The debug registers agree with the table of the manager. The bits of no register are what
they were at first. -/
structure Encodes (area : Nat → Nat) (objects : Ref → Breakpoint) (first : Nat)
    (helper : HardwareBreakpointManager) : Prop where
  counted : helper.breakpointCount = helper.held.length
  enabled : ∀ register : DebugReg, (area dr7Offset).testBit register.localBit =
    (helper.breakpointRegisters register).isSome
  armed : ∀ register ref, helper.breakpointRegisters register = some ref →
    Armed area register (objects ref)
  others : ∀ bit, (∀ register : DebugReg, ¬ register.Owns bit) →
    (area dr7Offset).testBit bit = first.testBit bit

/-- The user area after an installation -/
def areaInstalled (area : Nat → Nat) (register : DebugReg) (bp : Breakpoint) (cond len : Nat) :
    Nat → Nat :=
  Function.update (Function.update area register.offset bp.address) dr7Offset
    (controlWith register (area dr7Offset) cond len)

/-- The user area after a removal -/
def areaRemoved (area : Nat → Nat) (register : DebugReg) : Nat → Nat :=
  Function.update (Function.update area register.offset 0) dr7Offset
    (clearBits (area dr7Offset) register.ctrlLocal)

section Areas

variable {area : Nat → Nat} {objects : Ref → Breakpoint} {first : Nat}
  {helper : HardwareBreakpointManager} {ref : Ref} {bp : Breakpoint}

/-- A register keeps what it is armed with while its own bits and its address do. -/
theorem Armed.congr {other : Nat → Nat} (armed : Armed area register bp)
    (address : other register.offset = area register.offset)
    (bits : ∀ bit, register.Owns bit →
      (other dr7Offset).testBit bit = (area dr7Offset).testBit bit) :
    Armed other register bp where
  address := address.trans armed.address
  condition := by
    rw [← armed.condition]
    apply congrArg
    apply bitField_congr
    intro bit inside
    have after := register.ctrlLen_eq
    exact bits _ (.inr ⟨by omega, by omega⟩)
  length := by
    rw [← armed.length]
    apply congrArg
    apply bitField_congr
    intro bit inside
    have after := register.ctrlLen_eq
    exact bits _ (.inr ⟨by omega, by omega⟩)

theorem areaInstalled_address : areaInstalled area register bp cond len register.offset =
    bp.address := by
  rw [areaInstalled, Function.update_of_ne register.offset_ne_dr7, Function.update_self]

theorem areaInstalled_other {other : DebugReg} (differs : other ≠ register) :
    areaInstalled area register bp cond len other.offset = area other.offset := by
  rw [areaInstalled, Function.update_of_ne other.offset_ne_dr7,
    Function.update_of_ne fun same => differs (DebugReg.offset_injective same)]

theorem areaInstalled_dr7 : areaInstalled area register bp cond len dr7Offset =
    controlWith register (area dr7Offset) cond len :=
  Function.update_self ..

theorem areaRemoved_other {other : DebugReg} (differs : other ≠ register) :
    areaRemoved area register other.offset = area other.offset := by
  rw [areaRemoved, Function.update_of_ne other.offset_ne_dr7,
    Function.update_of_ne fun same => differs (DebugReg.offset_injective same)]

theorem areaRemoved_dr7 : areaRemoved area register dr7Offset =
    clearBits (area dr7Offset) register.ctrlLocal :=
  Function.update_self ..

theorem armed_areaInstalled (condition : ctrlCondVal bp.condition = some cond)
    (length : ctrlLenVal bp.length = some len) :
    Armed (areaInstalled area register bp cond len) register bp := by
  obtain ⟨condFits, condition⟩ := conditionOf_ctrlCondVal condition
  obtain ⟨lenFits, length⟩ := lengthOf_ctrlLenVal length
  constructor
  · exact areaInstalled_address
  · rw [areaInstalled_dr7, controlWith_condition condFits lenFits, condition]
  · rw [areaInstalled_dr7, controlWith_length condFits lenFits, length]

theorem Encodes.install (encodes : Encodes area objects first helper)
    (free : helper.breakpointRegisters register = none)
    (condition : ctrlCondVal (objects ref).condition = some cond)
    (length : ctrlLenVal (objects ref).length = some len) :
    Encodes (areaInstalled area register (objects ref) cond len) objects first
      ⟨helper.breakpointCount + 1,
        Function.update helper.breakpointRegisters register (some ref)⟩ := by
  obtain ⟨condFits, _⟩ := conditionOf_ctrlCondVal condition
  obtain ⟨lenFits, _⟩ := lengthOf_ctrlLenVal length
  have kept : ∀ bit, ¬ register.Owns bit →
      (areaInstalled area register (objects ref) cond len dr7Offset).testBit bit =
        (area dr7Offset).testBit bit := by
    intro bit outside
    rw [areaInstalled_dr7, controlWith_outside condFits lenFits outside]
  constructor
  · have held : (HardwareBreakpointManager.held _).Perm (ref :: helper.held) :=
      held_installed free (helper.breakpointCount + 1)
    rw [held.length_eq, List.length_cons, ← encodes.counted]
  · intro other
    dsimp only
    by_cases same : other = register
    · subst same
      rw [areaInstalled_dr7, controlWith_enables condFits lenFits, Function.update_self]
      rfl
    · have outside : ¬ register.Owns other.localBit := fun owned =>
        same (other.owns_localBit.eq owned)
      rw [kept _ outside, Function.update_of_ne same]
      exact encodes.enabled other
  · intro other installed holds
    dsimp only at holds
    by_cases same : other = register
    · subst same
      rw [Function.update_self] at holds
      cases holds
      exact armed_areaInstalled condition length
    · rw [Function.update_of_ne same] at holds
      apply (encodes.armed other installed holds).congr (areaInstalled_other same)
      intro bit owned
      exact kept bit fun also => same (owned.eq also)
  · intro bit outside
    rw [kept bit (outside register)]
    exact encodes.others bit outside

theorem Encodes.remove (encodes : Encodes area objects first helper)
    (holds : helper.breakpointRegisters register = some ref) :
    Encodes (areaRemoved area register) objects first
      ⟨helper.breakpointCount - 1,
        Function.update helper.breakpointRegisters register none⟩ := by
  have bits : ∀ bit, bit ≠ register.localBit →
      (areaRemoved area register dr7Offset).testBit bit = (area dr7Offset).testBit bit := by
    intro bit differs
    rw [areaRemoved_dr7, testBit_disabled, decide_eq_false (Ne.symm differs), Bool.not_false,
      Bool.and_true]
  constructor
  · have held := held_removed holds (helper.breakpointCount - 1)
    have length := held.length_eq
    rw [← encodes.counted, List.length_cons] at length
    rw [length]
    rfl
  · intro other
    dsimp only
    by_cases same : other = register
    · subst same
      rw [areaRemoved_dr7, testBit_disabled, Function.update_self, decide_eq_true rfl,
        Bool.not_true, Bool.and_false]
      rfl
    · have outside : other.localBit ≠ register.localBit := fun equal =>
        same (other.owns_localBit.eq (.inl equal))
      rw [bits _ outside, Function.update_of_ne same]
      exact encodes.enabled other
  · intro other installed there
    dsimp only at there
    by_cases same : other = register
    · subst same
      rw [Function.update_self] at there
      cases there
    · rw [Function.update_of_ne same] at there
      apply (encodes.armed other installed there).congr (areaRemoved_other same)
      rintro bit owned
      apply bits bit
      rintro rfl
      exact same (owned.eq (.inl rfl))
  · intro bit outside
    rw [bits bit fun equal => outside register (.inl equal)]
    exact encodes.others bit outside

end Areas

/-! ### Calls of one manager -/

/-- What is written to the user area of a thread is read there, and no request fails. -/
structure KeepsUserArea {K : Type} (k : Kernel K) (threadId : Int) (area : K → Nat → Nat) :
    Prop where
  peek : ∀ os address, k.peekuser os threadId address = some (area os address)
  poke : ∀ os address value, ∃ next, k.pokeuser os threadId address value = some next ∧
    area next = Function.update (area os) address value

/-- The first register without a breakpoint -/
def HardwareBreakpointManager.firstFree (helper : HardwareBreakpointManager) : Option DebugReg :=
  DebugReg.all.find? fun register => helper.breakpointRegisters register = none

/-- The first register whose breakpoint equals the given one -/
def HardwareBreakpointManager.firstEqual (helper : HardwareBreakpointManager)
    (objects : Ref → Breakpoint) (bp : Breakpoint) : Option DebugReg :=
  DebugReg.all.find? fun register =>
    (helper.breakpointRegisters register).any fun installed => objects installed = bp

inductive ManagerCall where
  | install (bp : Ref)
  | remove (bp : Ref)

namespace ManagerCall

def bp : ManagerCall → Ref
  | install bp | remove bp => bp

def program {K : Type} (k : Kernel K) (threadId : Int) : ManagerCall → Py K Unit
  | install bp => installBreakpoint k threadId bp
  | remove bp => removeBreakpoint k threadId bp

/-- No register is free, or none holds an equal breakpoint. -/
def Refused (objects : Ref → Breakpoint) (helper : HardwareBreakpointManager) :
    ManagerCall → Prop
  | install _ => ∀ register, helper.breakpointRegisters register ≠ none
  | remove bp => ∀ register installed, helper.breakpointRegisters register = some installed →
      objects installed ≠ objects bp

/-- The table after the call: an installation fills the first free register, a removal frees the
first one that holds an equal breakpoint, and a call that is refused changes nothing. -/
def applied (objects : Ref → Breakpoint) (helper : HardwareBreakpointManager) :
    ManagerCall → HardwareBreakpointManager
  | install bp =>
      match helper.firstFree with
      | some register =>
          ⟨helper.breakpointCount + 1,
            Function.update helper.breakpointRegisters register (some bp)⟩
      | none => helper
  | remove bp =>
      match helper.firstEqual objects (objects bp) with
      | some register =>
          ⟨helper.breakpointCount - 1, Function.update helper.breakpointRegisters register none⟩
      | none => helper

end ManagerCall

/-- The events are calls of the manager of a thread. A call that raises leaves the state that it
has reached. -/
def managing {K : Type} (k : Kernel K) (threadId : Int) : Machine (Debugger K) ManagerCall where
  step s call :=
    match (call.program k threadId).run s with
    | .ok _ next | .error (.raised _) next => some next
    | .error .crash _ | .error .hang _ => none

/-- The conditions and lengths that the two tables have -/
def Encodable (bp : Breakpoint) : Prop :=
  bp.condition ∈ [some "x", some "w", some "rw"] ∧ bp.length ∈ [1, 2, 4, 8]

theorem Encodable.values {bp : Breakpoint} (encodable : Encodable bp) :
    ∃ cond len, ctrlCondVal bp.condition = some cond ∧ ctrlLenVal bp.length = some len := by
  obtain ⟨condition, length⟩ := encodable
  have first : (ctrlCondVal bp.condition).isSome := by
    revert condition
    generalize bp.condition = condition
    revert condition
    decide
  have second : (ctrlLenVal bp.length).isSome := by
    revert length
    generalize bp.length = length
    revert length
    decide
  obtain ⟨cond, first⟩ := Option.isSome_iff_exists.mp first
  obtain ⟨len, second⟩ := Option.isSome_iff_exists.mp second
  exact ⟨cond, len, first, second⟩

section Calls

variable {K : Type} {k : Kernel K} {threadId : Int} {area : K → Nat → Nat} {s : Debugger K}
  {helper : HardwareBreakpointManager} {ref : Ref} {first : Nat}

theorem KeepsUserArea.run_peekUser (works : KeepsUserArea k threadId area) (address : Nat)
    (s : Debugger K) :
    (peekUser k threadId address).run s = .ok (area s.world.os address) s := by
  simp only [peekUser, EStateM.run_bind, EStateM.run_get, works.peek]
  rfl

theorem KeepsUserArea.run_pokeUser (works : KeepsUserArea k threadId area)
    (address value : Nat) (s : Debugger K) :
    ∃ os, area os = Function.update (area s.world.os) address value ∧
      (pokeUser k threadId address value).run s =
        .ok () (s.withHelpers os s.hardwareBpHelpers) := by
  obtain ⟨os, poked, written⟩ := works.poke s.world.os address value
  refine ⟨os, written, ?_⟩
  simp only [pokeUser, EStateM.run_modify, poked]
  rfl

/-- As long as the count is right, an installation fails if and only if no register is free. -/
theorem count_lt_iff (counted : helper.breakpointCount = helper.held.length) :
    helper.breakpointCount < dbregsCount ↔
      ∃ register, helper.breakpointRegisters register = none := by
  rw [counted]
  constructor
  · intro room
    obtain ⟨register, free⟩ := exists_free room
    exact ⟨register, by simpa using List.find?_some free⟩
  · rintro ⟨register, free⟩
    have held : (HardwareBreakpointManager.mk 0
        (Function.update helper.breakpointRegisters register (some 0))).held.Perm
          (0 :: helper.held) := held_installed free 0
    have more := held.length_eq
    rw [List.length_cons] at more
    have bound := held_length_le (HardwareBreakpointManager.mk 0
      (Function.update helper.breakpointRegisters register (some 0)))
    omega

theorem free_of_firstFree (first : helper.firstFree = some register) :
    helper.breakpointRegisters register = none := by
  simpa using List.find?_some first

theorem findDebugReg_eq (s : Debugger K) (helper : HardwareBreakpointManager) (ref : Ref) :
    s.findDebugReg helper ref = helper.firstEqual s.objects (s.objects ref) := by
  unfold Debugger.findDebugReg HardwareBreakpointManager.firstEqual
  congr 1
  funext register
  cases helper.breakpointRegisters register <;> rfl

theorem run_install_full (found : s.hardwareBpHelpers.get? threadId = some helper)
    (counted : helper.breakpointCount = helper.held.length)
    (full : ∀ register, helper.breakpointRegisters register ≠ none) :
    (installBreakpoint k threadId ref).run s =
      .error (.raised (.runtimeError "No more hardware breakpoints available.")) s := by
  have many : helper.breakpointCount ≥ dbregsCount := by
    apply not_lt.mp
    rw [count_lt_iff counted]
    rintro ⟨register, free⟩
    exact full register free
  simp only [installBreakpoint, EStateM.run_bind, run_getHelper found, EStateM.run_get, many,
    if_true]
  rfl

theorem run_install (works : KeepsUserArea k threadId area)
    (found : s.hardwareBpHelpers.get? threadId = some helper)
    (few : helper.breakpointCount < dbregsCount)
    (room : ∃ register, helper.breakpointRegisters register = none)
    {cond len : Nat} (condition : ctrlCondVal (s.objects ref).condition = some cond)
    (length : ctrlLenVal (s.objects ref).length = some len) :
    ∃ register os, helper.firstFree = some register ∧
      area os = areaInstalled (area s.world.os) register (s.objects ref) cond len ∧
      (installBreakpoint k threadId ref).run s =
        .ok () (s.withHelpers os (s.hardwareBpHelpers.modify threadId fun helper =>
          ⟨helper.breakpointCount + 1,
            Function.update helper.breakpointRegisters register (some ref)⟩)) := by
  have some : helper.firstFree.isSome := by
    obtain ⟨register, free⟩ := room
    apply List.find?_isSome.mpr
    exact ⟨register, register.mem_all, decide_eq_true free⟩
  obtain ⟨register, free⟩ := Option.isSome_iff_exists.mp some
  obtain ⟨os, addressed, written⟩ := works.run_pokeUser register.offset (s.objects ref).address s
  have peeked := works.run_peekUser dr7Offset (s.withHelpers os s.hardwareBpHelpers)
  have read : area os dr7Offset = area s.world.os dr7Offset := by
    rw [addressed, Function.update_of_ne register.offset_ne_dr7.symm]
  obtain ⟨os', controlled, control⟩ := works.run_pokeUser dr7Offset
    (controlWith register (area s.world.os dr7Offset) cond len)
    (s.withHelpers os s.hardwareBpHelpers)
  refine ⟨register, os', free, ?_, ?_⟩
  · rw [controlled]
    change Function.update (area os) _ _ = _
    rw [addressed]
    rfl
  · have counted : ¬ helper.breakpointCount ≥ dbregsCount := not_le.mpr few
    change EStateM.run _ _ = .ok (area os dr7Offset) _ at peeked
    rw [read] at peeked
    unfold controlWith at control
    unfold HardwareBreakpointManager.firstFree at free
    simp only [installBreakpoint, EStateM.run_bind, run_getHelper found, EStateM.run_get, counted,
      if_false, free, written, condition, length, peeked, control, EStateM.run_modify]
    rfl

theorem run_remove_absent (found : s.hardwareBpHelpers.get? threadId = some helper)
    (absent : ∀ register installed, helper.breakpointRegisters register = some installed →
      s.objects installed ≠ s.objects ref) :
    ∃ e, (removeBreakpoint k threadId ref).run s = .error (.raised e) s := by
  have none : s.findDebugReg helper ref = none := by
    apply List.find?_eq_none.mpr
    intro register _
    cases holds : helper.breakpointRegisters register with
    | none => simp
    | some installed => simpa using absent register installed holds
  by_cases empty : helper.breakpointCount ≤ 0
  · refine ⟨.runtimeError "No more hardware breakpoints to remove.", ?_⟩
    simp only [removeBreakpoint, EStateM.run_bind, run_getHelper found, EStateM.run_get, empty,
      if_true]
    rfl
  · refine ⟨.stopIteration, ?_⟩
    simp only [removeBreakpoint, EStateM.run_bind, run_getHelper found, EStateM.run_get, empty,
      if_false, none]
    rfl

theorem run_remove (works : KeepsUserArea k threadId area)
    (found : s.hardwareBpHelpers.get? threadId = some helper)
    (counted : helper.breakpointCount = helper.held.length)
    (present : ∃ register installed, helper.breakpointRegisters register = some installed ∧
      s.objects installed = s.objects ref) :
    ∃ register installed os, helper.firstEqual s.objects (s.objects ref) = some register ∧
      helper.breakpointRegisters register = some installed ∧
      area os = areaRemoved (area s.world.os) register ∧
      (removeBreakpoint k threadId ref).run s =
        .ok () (s.withHelpers os (s.hardwareBpHelpers.modify threadId fun helper =>
          ⟨helper.breakpointCount - 1,
            Function.update helper.breakpointRegisters register none⟩)) := by
  obtain ⟨other, held, there, equal⟩ := present
  have some : (s.findDebugReg helper ref).isSome := by
    apply List.find?_isSome.mpr
    exact ⟨other, other.mem_all, by simpa [there] using equal⟩
  obtain ⟨register, first⟩ := Option.isSome_iff_exists.mp some
  have matching := List.find?_some first
  cases holds : helper.breakpointRegisters register with
  | none => simp [holds] at matching
  | some installed =>
      have nonempty : ¬ helper.breakpointCount ≤ 0 := by
        have length := (held_removed holds 0).length_eq
        rw [← counted, List.length_cons] at length
        omega
      obtain ⟨os, addressed, written⟩ := works.run_pokeUser register.offset 0 s
      have peeked := works.run_peekUser dr7Offset (s.withHelpers os s.hardwareBpHelpers)
      have read : area os dr7Offset = area s.world.os dr7Offset := by
        rw [addressed, Function.update_of_ne register.offset_ne_dr7.symm]
      obtain ⟨os', controlled, control⟩ := works.run_pokeUser dr7Offset
        (clearBits (area s.world.os dr7Offset) register.ctrlLocal)
        (s.withHelpers os s.hardwareBpHelpers)
      refine ⟨register, installed, os', findDebugReg_eq s helper ref ▸ first, holds, ?_, ?_⟩
      · rw [controlled]
        change Function.update (area os) _ _ = _
        rw [addressed]
        rfl
      · change EStateM.run _ _ = .ok (area os dr7Offset) _ at peeked
        rw [read] at peeked
        simp only [removeBreakpoint, EStateM.run_bind, run_getHelper found, EStateM.run_get,
          nonempty, if_false, first, written, peeked, control, EStateM.run_modify]
        rfl

end Calls

section Runs

variable {K : Type} {k : Kernel K} {threadId : Int} {area : K → Nat → Nat} {s : Debugger K}
  {objects : Ref → Breakpoint} {first : Nat} {calls : List ManagerCall}

/-- The manager of the thread has a table, and the debug registers agree with it. -/
def Agreeing (threadId : Int) (area : K → Nat → Nat) (objects : Ref → Breakpoint) (first : Nat)
    (helper : HardwareBreakpointManager) (s : Debugger K) : Prop :=
  s.objects = objects ∧ s.hardwareBpHelpers.get? threadId = some helper ∧
    Encodes (area s.world.os) objects first helper

theorem modified_get? {helper : HardwareBreakpointManager}
    (found : s.hardwareBpHelpers.get? threadId = some helper)
    (f : HardwareBreakpointManager → HardwareBreakpointManager) :
    (s.hardwareBpHelpers.modify threadId f).get? threadId = some (f helper) := by
  rw [Dict.get?_modify, if_pos rfl, found]
  rfl

/-- What is refused leaves the table alone. -/
theorem applied_refused {helper : HardwareBreakpointManager} {call : ManagerCall}
    (refused : call.Refused objects helper) : call.applied objects helper = helper := by
  cases call with
  | install bp =>
      have none : helper.firstFree = none :=
        List.find?_eq_none.mpr fun register _ => by simpa using refused register
      rw [ManagerCall.applied, none]
  | remove bp =>
      have none : helper.firstEqual objects (objects bp) = none := by
        refine List.find?_eq_none.mpr fun register _ => ?_
        cases holds : helper.breakpointRegisters register with
        | none => simp
        | some installed => simpa using refused register installed holds
      rw [ManagerCall.applied, none]

/-- A call of the manager is refused and changes nothing, or returns and keeps the agreement. -/
theorem managing_step (works : KeepsUserArea k threadId area) {helper : HardwareBreakpointManager}
    (found : s.hardwareBpHelpers.get? threadId = some helper)
    (encodes : Encodes (area s.world.os) s.objects first helper) (call : ManagerCall)
    (encodable : Encodable (s.objects call.bp)) :
    (call.Refused s.objects helper ∧ ∃ e, (call.program k threadId).run s = .error (.raised e) s) ∨
      (¬ call.Refused s.objects helper ∧ ∃ next, (call.program k threadId).run s = .ok () next ∧
        Agreeing threadId area s.objects first (call.applied s.objects helper) next) := by
  cases call with
  | install bp =>
      by_cases full : ∀ register, helper.breakpointRegisters register ≠ none
      · left
        exact ⟨full, _, run_install_full found encodes.counted full⟩
      · right
        obtain ⟨cond, len, condition, length⟩ := encodable.values
        have room : ∃ register, helper.breakpointRegisters register = none := by simpa using full
        have few := (count_lt_iff encodes.counted).mpr room
        obtain ⟨register, os, firstFree, written, returned⟩ :=
          run_install works found few room condition length
        rw [ManagerCall.applied, firstFree]
        refine ⟨full, _, returned, rfl, modified_get? found _, ?_⟩
        change Encodes (area os) _ _ _
        rw [written]
        exact encodes.install (free_of_firstFree firstFree) condition length
  | remove bp =>
      by_cases absent : ∀ register installed, helper.breakpointRegisters register =
        some installed → s.objects installed ≠ s.objects bp
      · left
        exact ⟨absent, run_remove_absent found absent⟩
      · right
        have present : ∃ register installed, helper.breakpointRegisters register =
            some installed ∧ s.objects installed = s.objects bp := by
          push Not at absent
          exact absent
        obtain ⟨register, installed, os, firstEqual, holds, written, returned⟩ :=
          run_remove works found encodes.counted present
        rw [ManagerCall.applied, firstEqual]
        refine ⟨absent, _, returned, rfl, modified_get? found _, ?_⟩
        change Encodes (area os) _ _ _
        rw [written]
        exact encodes.remove holds

theorem managing_run (works : KeepsUserArea k threadId area) {helper : HardwareBreakpointManager}
    (agreeing : Agreeing threadId area objects first helper s)
    (encodable : ∀ call ∈ calls, Encodable (objects call.bp)) :
    ∃ final, (managing k threadId).run s calls = some final ∧
      Agreeing threadId area objects first (calls.foldl (ManagerCall.applied objects) helper)
        final := by
  induction calls generalizing s helper with
  | nil => exact ⟨s, rfl, agreeing⟩
  | cons call rest ih =>
      obtain ⟨here, later⟩ := List.forall_mem_cons.mp encodable
      obtain ⟨rfl, found, encodes⟩ := agreeing
      rw [List.foldl_cons]
      rcases managing_step works found encodes call here with
        ⟨refused, e, raised⟩ | ⟨_, next, returned, kept⟩
      · have stepped : (managing k threadId).step s call = some s := by
          simp only [managing, raised]
        rw [Machine.run_cons stepped, applied_refused refused]
        exact ih ⟨rfl, found, encodes⟩ later
      · have stepped : (managing k threadId).step s call = some next := by
          simp only [managing, returned]
        rw [Machine.run_cons stepped]
        exact ih kept later

theorem encodes_fresh {area : Nat → Nat}
    (clear : ∀ register : DebugReg, (area dr7Offset).testBit register.localBit = false) :
    Encodes area objects (area dr7Offset) {} where
  counted := rfl
  enabled register := clear register
  armed register ref holds := by cases holds
  others bit _ := rfl

theorem scripted_keepsUserArea (threadId : Int) :
    KeepsUserArea scripted threadId fun os => os.user threadId where
  peek _ _ := rfl
  poke _ _ _ := ⟨_, rfl, Function.update_self ..⟩

/-- After every sequence of calls on a fresh manager, none of whose registers is enabled yet, the
table is that of the calls and the debug registers agree with it; and the next call fails only if
it is refused, which changes nothing. -/
theorem debugRegisters_encode (works : KeepsUserArea k threadId area)
    (fresh : s.hardwareBpHelpers.get? threadId = some {})
    (clear : ∀ register : DebugReg,
      (area s.world.os dr7Offset).testBit register.localBit = false)
    (encodable : ∀ call ∈ calls, Encodable (s.objects call.bp)) :
    ∃ final helper, (managing k threadId).run s calls = some final ∧
      final.objects = s.objects ∧ final.hardwareBpHelpers.get? threadId = some helper ∧
      helper = calls.foldl (ManagerCall.applied s.objects) {} ∧
      helper.breakpointCount ≤ 4 ∧
      Encodes (area final.world.os) final.objects (area s.world.os dr7Offset) helper ∧
      ∀ call : ManagerCall, Encodable (final.objects call.bp) →
        (call.Refused final.objects helper ∧
          ∃ e, (call.program k threadId).run final = .error (.raised e) final) ∨
        (¬ call.Refused final.objects helper ∧
          ∃ next, (call.program k threadId).run final = .ok () next ∧
            next.hardwareBpHelpers.get? threadId = some (call.applied final.objects helper)) := by
  have start : Agreeing threadId area s.objects (area s.world.os dr7Offset) {} s :=
    ⟨rfl, fresh, encodes_fresh clear⟩
  obtain ⟨final, reached, same, found, encodes⟩ := managing_run works start encodable
  set helper := calls.foldl (ManagerCall.applied s.objects) {} with table
  rw [← same] at encodes
  refine ⟨final, helper, reached, same, found, table, ?_, encodes, ?_⟩
  · rw [encodes.counted]
    exact held_length_le helper
  · intro call valid
    rcases managing_step works found encodes call valid with
      refused | ⟨accepted, next, returned, -, filled, -⟩
    · exact .inl refused
    · exact .inr ⟨accepted, next, returned, filled⟩

/-- One thread with a fresh manager, and breakpoints on writes of four bytes -/
def freshManager : Debugger Script :=
  { Debugger.initial (World.nops { registers := fun _ => none }) with
    objects := fun ref => { address := 0x1000 + 8 * ref, condition := some "w", length := 4 }
    hardwareBpHelpers := Dict.empty.set 1 {} }

theorem freshManager_encoded :
    ∃ final helper, (managing scripted 1).run freshManager
        [.install 0, .install 1, .remove 0, .install 2, .remove 0] = some final ∧
      final.hardwareBpHelpers.get? 1 = some helper ∧
      helper.breakpointRegisters .dr0 = some 2 ∧ helper.breakpointRegisters .dr1 = some 1 ∧
      Encodes (final.world.os.user 1) final.objects 0 helper := by
  obtain ⟨final, helper, reached, _, found, rfl, _, encodes, _⟩ :=
    debugRegisters_encode (scripted_keepsUserArea 1)
      (show freshManager.hardwareBpHelpers.get? 1 = some {} from rfl)
      (fun register => Nat.zero_testBit register.localBit)
      (show ∀ call ∈ [ManagerCall.install 0, .install 1, .remove 0, .install 2, .remove 0],
          Encodable (freshManager.objects call.bp) from
        fun _ _ => ⟨.tail _ (.head _), .tail _ (.tail _ (.head _))⟩)
  exact ⟨final, _, reached, found, by decide, by decide, encodes⟩

end Runs

end Libdebug.Ptrace
