import Libdebug.Ptrace.Commands
import Libdebug.Ptrace.DebugControl

/-!
From the arguments of `breakpoint` to the debug registers. The condition is checked in lower
case and stored as it was given; the length is checked only together with a condition. The
tables of the installation know neither other letters nor other lengths.
-/

namespace Libdebug.Ptrace

open Libdebug.Foundation Libdebug.Cffi

/-- The condition of a new hardware breakpoint; an empty one counts as none. -/
def storedCondition (condition : Option String) : Option String :=
  if condition = none ∨ condition = some "" then some "x" else condition

/-- The condition that is asked for, whatever its letter case -/
def requestedCondition (condition : Option String) : Option String :=
  (storedCondition condition).map String.toLower

/-- A new hardware breakpoint. A length is any integer; none below zero is in the list of lengths
or in their table, as little as 0 is. -/
def requested (address : Nat) (symbol : String) (condition : Option String) (length : Int)
    (callback : Option Callback) : Breakpoint :=
  { address, symbol, hardware := true, callback, condition := storedCondition condition
    length := length.toNat }

theorem toNat_mem_lengths {length : Int} :
    length.toNat ∈ [1, 2, 4, 8] ↔ length ∈ ([1, 2, 4, 8] : List Int) := by
  simp only [List.mem_cons, List.not_mem_nil, or_false]
  omega

section

variable {K : Type} {k : Kernel K} {s : Debugger K}

/-- `breakpoint` makes this object of the arguments that it accepts. -/
theorem breakpoint_hardware (k : Kernel K) (address : Nat) (symbol : String)
    (condition : Option String) (length : Int) (callback : Option Callback) :
    breakpoint k address symbol true condition length.toNat callback = (do
      ensureAlive
      checkCondition true condition length.toNat
      let bp ← newBreakpoint (requested address symbol condition length callback)
      setBreakpoint k bp true
      confirmInserted address) := by
  unfold breakpoint requested storedCondition
  simp only [true_and]

theorem requestedCondition_of_check {condition : Option String} {length : Nat} {t : Debugger K}
    (returned : (checkCondition true condition length : Py K Unit).run s = .ok () t) :
    requestedCondition condition ∈ [some "w", some "rw", some "x"] := by
  unfold checkCondition at returned
  split at returned
  · decide +kernel
  · decide +kernel
  · rename_i condition nonempty
    simp only [Bool.not_true, Bool.false_eq_true, if_false] at returned
    split at returned
    · cases returned
    · rename_i letters
      have given : ¬ (some condition = none ∨ some condition = some "") := by
        rintro (none | empty)
        · cases none
        · cases empty
          exact nonempty rfl
      rw [requestedCondition, storedCondition, if_neg given]
      exact List.mem_map_of_mem (f := some) (not_not.mp letters)

theorem checkCondition_accepts {condition : String} {length : Nat}
    (letters : condition.toLower ∈ ["w", "rw", "x"]) (lengths : length ∈ [1, 2, 4, 8]) :
    (checkCondition true (some condition) length : Py K Unit) = pure () := by
  unfold checkCondition
  split
  · rfl
  · rfl
  · rename_i other _ same
    cases same
    rw [if_neg (by decide), if_neg (not_not.mpr letters), if_neg (not_not.mpr lengths)]

/-- A condition of the table is one in lower case. -/
theorem toLower_of_ctrlCondVal {condition : Option String}
    (known : (ctrlCondVal condition).isSome) : condition.map String.toLower = condition := by
  unfold ctrlCondVal at known
  split at known
  · decide +kernel
  · decide +kernel
  · decide +kernel
  · cases known

theorem length_of_ctrlLenVal {length : Int} (known : (ctrlLenVal length.toNat).isSome) :
    length ∈ ([1, 2, 4, 8] : List Int) := by
  rw [← toNat_mem_lengths]
  revert known
  generalize length.toNat = length
  intro known
  unfold ctrlLenVal at known
  split at known
  · decide
  · decide
  · decide
  · decide
  · cases known

/-! ### Hits -/

/-- The processor says in `DR6` that the register has been hit first, while the manager holds
the breakpoint in it. -/
structure HitOn (threadId : Int) (area : K → Nat → Nat) (register : DebugReg) (ref : Ref)
    (s : Debugger K) : Prop where
  held : ∃ helper, s.hardwareBpHelpers.get? threadId = some helper ∧
    helper.breakpointRegisters register = some ref
  hit : hitDebugReg (area s.world.os dr6Offset) = some register

theorem isWatchpointHit_returns {threadId : Int} {area : K → Nat → Nat} {register : DebugReg}
    {ref : Ref} (works : KeepsUserArea k threadId area)
    (hit : HitOn threadId area register ref s) :
    (isWatchpointHit k threadId).run s =
      .ok (if (s.objects ref).condition = some "x" then none else some ref) s := by
  obtain ⟨helper, found, held⟩ := hit.held
  have read := works.run_peekUser dr6Offset s
  simp only [isWatchpointHit, EStateM.run_bind, run_getHelper found, read, EStateM.run_get,
    hit.hit, Option.bind_some, held]
  rfl

/-! ### Installations -/

/-- The breakpoint is installed in a register, with the condition and the length that were asked
for, and a hit of the register is reported if the condition is not that of a breakpoint. -/
def InstallsAs (k : Kernel K) (threadId : Int) (area : K → Nat → Nat) (s : Debugger K) (ref : Ref)
    (condition : Option String) (length : Int) : Prop :=
  ∃ register t, (installBreakpoint k threadId ref).run s = .ok () t ∧
    (area t.world.os dr7Offset).testBit register.localBit = true ∧
    conditionOf (bitField (area t.world.os dr7Offset) register.ctrlCond 2) = condition ∧
    (lengthOf (bitField (area t.world.os dr7Offset) register.ctrlLen 2)).map Int.ofNat =
      some length ∧
    ∀ later : Debugger K, (later.objects ref).condition = (s.objects ref).condition →
      HitOn threadId area register ref later → condition ≠ some "x" →
        (isWatchpointHit k threadId).run later = .ok (some ref) later

variable {threadId : Int} {area : K → Nat → Nat} {helper : HardwareBreakpointManager} {ref : Ref}

/-- A breakpoint that has been accepted is installed as it was asked for, while a register is
free, if and only if its condition is stored in lower case and its length is in the table. -/
theorem accepted_installs_iff {address : Nat} {symbol : String} {condition : Option String}
    {length : Int} {callback : Option Callback}
    (works : KeepsUserArea k threadId area)
    (found : s.hardwareBpHelpers.get? threadId = some helper)
    (few : helper.breakpointCount < dbregsCount)
    (room : ∃ register, helper.breakpointRegisters register = none)
    (accepted : (checkCondition true condition length.toNat : Py K Unit).run s = .ok () s)
    (object : s.objects ref = requested address symbol condition length callback) :
    InstallsAs k threadId area s ref (requestedCondition condition) length ↔
      storedCondition condition = requestedCondition condition ∧
        length ∈ ([1, 2, 4, 8] : List Int) := by
  constructor
  · rintro ⟨register, t, returned, _⟩
    obtain ⟨_, before, _, _, ⟨⟨_, _, condition, length⟩, _⟩, _⟩ := installBreakpoint_ok returned
    rw [object] at condition length
    exact ⟨(toLower_of_ctrlCondVal condition).symm, length_of_ctrlLenVal length⟩
  · rintro ⟨lower, inTable⟩
    have known := requestedCondition_of_check accepted
    have encodable : Encodable (s.objects ref) := by
      rw [object]
      constructor
      · change storedCondition condition ∈ _
        rw [lower]
        simpa [or_comm, or_left_comm] using known
      · exact toNat_mem_lengths.mpr inTable
    obtain ⟨cond, len, condVal, lenVal⟩ := encodable.values
    obtain ⟨register, os, free, written, returned⟩ :=
      run_install works found few room condVal lenVal
    have armed : Armed (areaInstalled (area s.world.os) register (s.objects ref) cond len)
        register (s.objects ref) := armed_areaInstalled condVal lenVal
    rw [← written] at armed
    refine ⟨register, _, returned, ?_, ?_, ?_, ?_⟩
    · change (area os dr7Offset).testBit _ = _
      rw [written, areaInstalled_dr7]
      exact controlWith_enables (conditionOf_ctrlCondVal condVal).1 (lengthOf_ctrlLenVal lenVal).1
    · rw [← lower]
      exact armed.condition.trans (by rw [object]; rfl)
    · have positive : 0 ≤ length := by
        simp only [List.mem_cons, List.not_mem_nil, or_false] at inTable
        omega
      refine (congrArg _ armed.length).trans ?_
      rw [object]
      exact congrArg some (Int.toNat_of_nonneg positive)
    · intro later same hit watch
      rw [isWatchpointHit_returns works hit, same, object]
      change (EStateM.Result.ok (if storedCondition condition = some "x" then none else some ref)
        later) = _
      rw [lower, if_neg watch]

end

/-- A fresh manager, and a new breakpoint at 0x1000 -/
def accepting (condition : Option String) (length : Int) : Debugger Script :=
  { freshManager with objects := fun _ => requested 0x1000 "" condition length none }

theorem accepting_accepts {condition : String} {length : Int}
    (letters : condition.toLower ∈ ["w", "rw", "x"]) (lengths : length.toNat ∈ [1, 2, 4, 8]) :
    (checkCondition true (some condition) length.toNat).run (accepting (some condition) length) =
      .ok () (accepting (some condition) length) := by
  rw [checkCondition_accepts letters lengths]
  rfl

theorem accepting_rw :
    InstallsAs scripted 1 (fun os => os.user 1) (accepting (some "rw") 8) 0
      (requestedCondition (some "rw")) 8 :=
  (accepted_installs_iff (scripted_keepsUserArea 1) (show
      (accepting (some "rw") 8).hardwareBpHelpers.get? 1 = some {} from rfl) (by decide) ⟨.dr0, rfl⟩
    (accepting_accepts (by decide +kernel) (by decide)) rfl).mpr ⟨by decide +kernel, by decide⟩

/-- A condition in upper case, or a length of three without a condition, is accepted; the
installation writes the address register and finds no entry of its table. -/
theorem accepted_keyError :
    ((checkCondition true (some "W") (1 : Int).toNat).run (accepting (some "W") 1) =
        .ok () (accepting (some "W") 1) ∧
      ∃ t, (installBreakpoint scripted 1 0).run (accepting (some "W") 1) =
        .error (.raised .keyError) t ∧ t.world.os.user 1 DebugReg.dr0.offset = 0x1000) ∧
    ((checkCondition true none (3 : Int).toNat).run (accepting none 3) =
        .ok () (accepting none 3) ∧
      ∃ t, (installBreakpoint scripted 1 0).run (accepting none 3) =
        .error (.raised .keyError) t ∧ t.world.os.user 1 DebugReg.dr0.offset = 0x1000) := by
  refine ⟨⟨?_, _, rfl, rfl⟩, rfl, _, rfl, rfl⟩
  exact accepting_accepts (by decide +kernel) (by decide)

end Libdebug.Ptrace
