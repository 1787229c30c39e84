import Libdebug.Data.MemoryKeys
import Libdebug.Ptrace.Managers

/-!
Writes that the kernel rejects. `ptrace` then returns -1, the C functions return this as an
unsigned number, and the Python code compares that with -1: a rejected write of memory or of a
debug register is taken for one that was made, by everything that is built on the two.
-/

namespace Libdebug.Data

open Libdebug.Foundation

variable {process : Process} {p : Access} {mem : Memory} {value : List Byte}

/-! ### Words of memory -/

/-- The kernel is asked to write the word at this address, and does not. -/
abbrev PokeRejected (p : Access) (x : Int) : Prop := Fits x ∧ p.writable x.toNat = false

/-- A rejected write of a word returns. -/
theorem pokeMemory_rejected {x data : Int} (rejected : PokeRejected p x) (fits : Fits data) :
    (pokeMemory p x data).run mem = .ok () mem := by
  have wrote := run_pokeMemory p mem (BitVec.ofNat 64 data.toNat) rejected.1.2
  rw [BitVec.toNat_ofNat, Nat.mod_eq_of_lt fits.2, Int.toNat_of_nonneg rejected.1.1,
    Int.toNat_of_nonneg fits.1, ptracePokedata, rejected.2] at wrote
  exact wrote

theorem pokeMemory_reports_iff (p : Access) (mem : Memory) (x data : Int) :
    (PokeRejected p x ∧ Fits data →
        ∃ e m, (pokeMemory p x data).run mem = .error (.osError e) m) ↔
      ¬ (PokeRejected p x ∧ Fits data) := by
  constructor
  · rintro reports ⟨rejected, fits⟩
    obtain ⟨e, m, raised⟩ := reports ⟨rejected, fits⟩
    cases (pokeMemory_rejected rejected fits).symm.trans raised
  · intro accepted both
    exact absurd both accepted

/-! ### Keys -/

/-- Where a write begins -/
def writeTarget (process : Process) : Key → String → Except AccessError Int
  | .int key, file => process.resolveAddress key file true
  | .slice start stop, file => do
      let start ← process.resolvePosition file start
      if let some stop := stop then
        let stop ← process.resolvePosition file stop
        if stop < start then throw (.valueError "Invalid slice range")
      pure start
  | .str key, file => process.resolveSymbol key file
  | .sized address _ file, _ => process.resolvePosition file address
  | .inFile left right, _ => writeTarget process left right
  | .range left _, _ => process.resolvePosition "hybrid" left

/-- The key is the name of a symbol: the errors of the system are not translated. -/
def Key.isSymbol : Key → Bool
  | .str _ => true
  | .inFile left _ => left.isSymbol
  | _ => false

/-- A write at an address, through a key -/
def writeThrough (p : Access) (key : Key) (address : Int) (value : List Byte) : Accessing Unit :=
  if key.isSymbol then (ptraceMemory p).write address value
  else invalidAddress ((ptraceMemory p).write address value)

theorem slice_target (start : Position) (stop : Option Position) (file : String) :
    manageMemoryWriteType process p (.slice start stop) value file =
      ofExcept (writeTarget process (.slice start stop) file) >>= fun address =>
        invalidAddress ((ptraceMemory p).write address value) := by
  change (ofExcept (process.resolvePosition file start) >>= _ : Accessing Unit) =
    ofExcept (process.resolvePosition file start >>= _) >>= _
  cases process.resolvePosition file start with
  | error e => rfl
  | ok first =>
      cases stop with
      | none => rfl
      | some stop =>
          change (ofExcept (process.resolvePosition file stop) >>= _ : Accessing Unit) =
            ofExcept (process.resolvePosition file stop >>= _) >>= _
          cases process.resolvePosition file stop with
          | error e => rfl
          | ok last =>
              change (do
                  if last < first then throw (.valueError "Invalid slice range")
                  invalidAddress ((ptraceMemory p).write first value) : Accessing Unit) =
                ofExcept (do
                  if last < first then throw (.valueError "Invalid slice range")
                  pure first) >>= _
              by_cases order : last < first
              · rw [if_pos order, if_pos order]
                rfl
              · rw [if_neg order, if_neg order]
                rfl

/-- A write with a key writes where the key says. -/
theorem manageMemoryWriteType_eq (process : Process) (p : Access) (value : List Byte) (key : Key)
    (file : String) :
    manageMemoryWriteType process p key value file =
      ofExcept (writeTarget process key file) >>= fun address =>
        writeThrough p key address value := by
  induction key generalizing file with
  | int key => rfl
  | slice start stop => exact slice_target start stop file
  | str key => rfl
  | sized address size other => rfl
  | inFile left right ih => exact ih right
  | range left right => rfl

/-- One of the words that a write is to change is not writable. -/
def TouchesUnwritable (process : Process) (p : Access) (key : Key) (size : Nat) : Prop :=
  ∃ address, writeTarget process key "hybrid" = .ok address ∧ 0 ≤ address ∧
    ∃ i < (size + 7) / 8, PokeRejected p (address + 8 * i)

/-- The last word of a write is read first, as only a part of it is written, and cannot be
read. -/
abbrev LastWordUnreadable (p : Access) (address size : Nat) : Prop :=
  WordsFit address size ∧ size % 8 ≠ 0 ∧ p.readable (address + 8 * (size / 8)) = false

theorem run_write_unreadable (mem : Memory) {address : Nat}
    (unreadable : LastWordUnreadable p address value.length) :
    ∃ m, ((ptraceMemory p).write address value).run mem = .error (.osError p.errno) m := by
  obtain ⟨fits, cut, last⟩ := unreadable
  have inside := (fits.resolve_left fun empty => cut (by rw [empty])).2
  have wrote := run_write_ptrace p mem address value inside
  have neither : ¬ (value.length % 8 = 0 ∨ p.readable (address + 8 * (value.length / 8)) = true) :=
    not_or.mpr ⟨cut, Bool.not_eq_true _ ▸ last⟩
  rw [if_neg neither] at wrote
  exact ⟨_, wrote⟩

theorem run_write_readable (mem : Memory) {address : Nat}
    (readable : ¬ LastWordUnreadable p address value.length) :
    (∃ m, ((ptraceMemory p).write address value).run mem = .ok () m) ∨
      ∃ m, ((ptraceMemory p).write address value).run mem = .error .overflowError m := by
  by_cases empty : value = []
  · subst empty
    exact .inl ⟨mem, run_write_nil p mem address⟩
  by_cases fits : WordsFit address value.length
  · have inside := (fits.resolve_left (mt List.eq_nil_of_length_eq_zero empty)).2
    have wrote := run_write_ptrace p mem address value inside
    have ends : value.length % 8 = 0 ∨ p.readable (address + 8 * (value.length / 8)) = true := by
      by_contra neither
      obtain ⟨cut, last⟩ := not_or.mp neither
      exact readable ⟨fits, cut, Bool.eq_false_of_not_eq_true last⟩
    rw [if_pos ends] at wrote
    exact .inl ⟨_, wrote⟩
  · exact .inr (run_write_overflow p mem address value fits)

/-- The only `ValueError` of a write stands for a last word that cannot be read. -/
theorem valueError_iff (p : Access) (mem : Memory) (key : Key) (address : Nat)
    (value : List Byte) :
    (∃ message m, (writeThrough p key address value).run mem =
        .error (.valueError message) m) ↔
      key.isSymbol = false ∧ LastWordUnreadable p address value.length := by
  unfold writeThrough
  by_cases unreadable : LastWordUnreadable p address value.length
  · obtain ⟨m, wrote⟩ := run_write_unreadable mem unreadable
    cases key.isSymbol with
    | true =>
        rw [if_pos rfl]
        simp only [Bool.true_eq_false, false_and, iff_false]
        rintro ⟨message, m, raised⟩
        cases wrote.symm.trans raised
    | false =>
        rw [if_neg Bool.false_ne_true]
        exact iff_of_true ⟨_, _, invalidAddress_osError wrote⟩ ⟨rfl, unreadable⟩
  · simp only [unreadable, and_false, iff_false]
    rintro ⟨message, m, raised⟩
    rcases run_write_readable mem unreadable with ⟨_, wrote⟩ | ⟨_, wrote⟩
    · split at raised
      · cases wrote.symm.trans raised
      · cases (invalidAddress_ok wrote).symm.trans raised
    · split at raised
      · cases wrote.symm.trans raised
      · cases (invalidAddress_overflow wrote).symm.trans raised

theorem run_setitem {address : Int} {key : Key}
    (target : writeTarget process key "hybrid" = .ok address) :
    (setitem process p key value).run mem = (writeThrough p key address value).run mem := by
  have unfolded := manageMemoryWriteType_eq process p value key "hybrid"
  rw [target] at unfolded
  exact congrArg (EStateM.run · mem) unfolded

/-- A write that touches a word that is not writable raises a `ValueError` only where its last
word cannot be read either. -/
theorem setitem_reports_iff (process : Process) (p : Access) (mem : Memory) (key : Key)
    (value : List Byte) :
    (TouchesUnwritable process p key value.length →
        ∃ message m, (setitem process p key value).run mem = .error (.valueError message) m) ↔
      ¬ TouchesUnwritable process p key value.length ∨
        (key.isSymbol = false ∧ ∃ address : Nat,
          writeTarget process key "hybrid" = .ok (address : Int) ∧
            LastWordUnreadable p address value.length) := by
  by_cases touches : TouchesUnwritable process p key value.length
  · simp only [touches, true_implies, not_true, false_or]
    obtain ⟨address, target, natural, _⟩ := touches
    obtain ⟨address, rfl⟩ := Int.eq_ofNat_of_zero_le natural
    rw [run_setitem target, valueError_iff]
    apply and_congr_right
    intro _
    constructor
    · intro unreadable
      exact ⟨address, target, unreadable⟩
    · rintro ⟨other, same, unreadable⟩
      cases target.symm.trans same
      exact unreadable
  · simp only [touches, false_implies, not_false_iff, true_or]

end Libdebug.Data

namespace Libdebug.Ptrace

open Libdebug.Foundation Libdebug.Cffi Libdebug.Data

variable {K : Type} {k : Kernel K} {s t : Debugger K}

/-! ### The user area -/

/-- `ptrace_pokeuser`, and the kernel after it -/
def ptracePokeuser (k : Kernel K) (os : K) (tid : Int) (addr data : Nat) : Word × K :=
  match k.pokeuser os tid addr data with
  | some os => (0, os)
  | none => (failure, os)

/-- `_poke_user` with its comparison -/
def pokeUserCompared (k : Kernel K) (threadId : Int) (address value : Nat) : Py K Unit := do
  let s ← get
  let poked := ptracePokeuser k s.world.os threadId address value
  set { s with world := { s.world with os := poked.2 } }
  if (poked.1.toNat : Int) = -1 then raise (.osError (k.errno poked.2)) else pure ()

theorem run_pokeUser_eq (threadId : Int) (address value : Nat) (s : Debugger K) :
    (pokeUser k threadId address value).run s =
      .ok () (s.withHelpers (ptracePokeuser k s.world.os threadId address value).2
        s.hardwareBpHelpers) := by
  simp only [pokeUser, EStateM.run_modify, ptracePokeuser]
  cases k.pokeuser s.world.os threadId address value with
  | none => rfl
  | some os => rfl

/-- The comparison never holds, so that the writes of the debug registers are the ones that
`pokeUser` makes. -/
theorem pokeUserCompared_eq (threadId : Int) (address value : Nat) :
    pokeUserCompared k threadId address value = pokeUser k threadId address value := by
  funext s
  have never : ¬ (((ptracePokeuser k s.world.os threadId address value).1.toNat : Int) = -1) := by
    omega
  have written := run_pokeUser_eq (k := k) threadId address value s
  have unfolded : (pokeUserCompared k threadId address value).run s =
      (if ((ptracePokeuser k s.world.os threadId address value).1.toNat : Int) = -1 then
        raise (.osError (k.errno (ptracePokeuser k s.world.os threadId address value).2))
      else pure () : Py K Unit).run (s.withHelpers
        (ptracePokeuser k s.world.os threadId address value).2 s.hardwareBpHelpers) := rfl
  rw [if_neg never] at unfolded
  exact unfolded.trans written.symm

/-- A rejected write of the user area returns. -/
theorem pokeUserCompared_returns (threadId : Int) (address value : Nat) (s : Debugger K) :
    ∃ t, (pokeUserCompared k threadId address value).run s = .ok () t := by
  obtain ⟨os, wrote⟩ := run_pokeUser k threadId address value s
  rw [pokeUserCompared_eq]
  exact ⟨_, wrote⟩

/-! ### Hardware breakpoints -/

/-- The register that a new hardware breakpoint of the thread takes -/
def TakesRegister (s : Debugger K) (threadId : Int) (register : DebugReg) : Prop :=
  ∃ helper, s.hardwareBpHelpers.get? threadId = some helper ∧
    helper.breakpointCount < dbregsCount ∧
      DebugReg.all.find? (fun register => helper.breakpointRegisters register = none) =
        some register

/-- The kernel after the address of a breakpoint was written, or rejected -/
def afterAddress (k : Kernel K) (s : Debugger K) (threadId : Int) (ref : Ref)
    (register : DebugReg) : K :=
  (ptracePokeuser k s.world.os threadId register.offset (s.objects ref).address).2

/-- `DR7` with the condition and the length of a breakpoint -/
def controlWith (register : DebugReg) (ctrl cond len : Nat) : Nat :=
  clearBits (clearBits ctrl (0x3 <<< register.ctrlCond)) (0x3 <<< register.ctrlLen) |||
    (register.ctrlLocal ||| (cond <<< register.ctrlCond) ||| (len <<< register.ctrlLen))

/-- The kernel rejects one of the two writes of an installation. -/
def InstallRejected (k : Kernel K) (s : Debugger K) (threadId : Int) (ref : Ref) : Prop :=
  ∃ register, TakesRegister s threadId register ∧
    (k.pokeuser s.world.os threadId register.offset (s.objects ref).address = none ∨
      ∃ cond len ctrl, ctrlCondVal (s.objects ref).condition = some cond ∧
        ctrlLenVal (s.objects ref).length = some len ∧
        k.peekuser (afterAddress k s threadId ref register) threadId dr7Offset = some ctrl ∧
        k.pokeuser (afterAddress k s threadId ref register) threadId dr7Offset
          (controlWith register ctrl cond len) = none)

/-- An installation ends before it reaches `DR7`. -/
def InstallCutShort (k : Kernel K) (s : Debugger K) (threadId : Int) (ref : Ref) : Prop :=
  ctrlCondVal (s.objects ref).condition = none ∨ ctrlLenVal (s.objects ref).length = none ∨
    ∃ register, TakesRegister s threadId register ∧
      k.peekuser (afterAddress k s threadId ref register) threadId dr7Offset = none

/-- The records of the thread's registers are as they were, however the installation ends. -/
def RecordsNothing (k : Kernel K) (s : Debugger K) (threadId : Int) (ref : Ref) : Prop :=
  (stateAfter (installBreakpoint k threadId ref) s).hardwareBpHelpers = s.hardwareBpHelpers

section Install

variable {threadId : Int} {ref : Ref} {register : DebugReg}

/-- The state before `DR7` is read -/
abbrev beforeControl (k : Kernel K) (s : Debugger K) (threadId : Int) (ref : Ref)
    (register : DebugReg) : Debugger K :=
  s.withHelpers (afterAddress k s threadId ref register) s.hardwareBpHelpers

/-- An installation after the address of the breakpoint was written -/
theorem run_installBreakpoint (k : Kernel K) (ref : Ref)
    (takes : TakesRegister s threadId register) :
    (installBreakpoint k threadId ref).run s =
      (match ctrlCondVal (s.objects ref).condition, ctrlLenVal (s.objects ref).length with
        | some cond, some len => do
            let ctrl ← peekUser k threadId dr7Offset
            pokeUser k threadId dr7Offset (controlWith register ctrl cond len)
            modify (·.setDebugReg threadId register (some ref) (· + 1))
        | _, _ => raise .keyError : Py K Unit).run (beforeControl k s threadId ref register) := by
  obtain ⟨helper, found, counted, free⟩ := takes
  have room : ¬ helper.breakpointCount ≥ dbregsCount := not_le.mpr counted
  have written := run_pokeUser_eq (k := k) threadId register.offset (s.objects ref).address s
  simp only [installBreakpoint, EStateM.run_bind, run_getHelper found, EStateM.run_get, room,
    if_false, free, written]
  rfl

theorem installBreakpoint_keeps_of_error {e : Abort}
    (raised : (installBreakpoint k threadId ref).run s = .error e t) :
    RecordsNothing k s threadId ref := by
  rw [RecordsNothing, stateAfter_of_error raised]
  exact installBreakpoint_raises threadId ref s e t raised

theorem TakesRegister.unique {other : DebugReg} (takes : TakesRegister s threadId register)
    (takesOther : TakesRegister s threadId other) : other = register := by
  obtain ⟨helper, found, _, free⟩ := takes
  obtain ⟨same, foundSame, _, freeOther⟩ := takesOther
  cases found.symm.trans foundSame
  exact Option.some.inj (freeOther.symm.trans free)

theorem installCutShort_iff (takes : TakesRegister s threadId register) :
    InstallCutShort k s threadId ref ↔
      ctrlCondVal (s.objects ref).condition = none ∨ ctrlLenVal (s.objects ref).length = none ∨
        k.peekuser (afterAddress k s threadId ref register) threadId dr7Offset = none := by
  apply or_congr_right
  apply or_congr_right
  constructor
  · rintro ⟨other, takesOther, unread⟩
    rwa [takes.unique takesOther] at unread
  · intro unread
    exact ⟨register, takes, unread⟩

/-- The last step of an installation records the breakpoint. -/
theorem setDebugReg_helpers_ne (takes : TakesRegister s threadId register) (os : K) :
    ((s.withHelpers os s.hardwareBpHelpers).setDebugReg threadId register (some ref)
      (· + 1)).hardwareBpHelpers ≠ s.hardwareBpHelpers := by
  obtain ⟨helper, found, _, free⟩ := takes
  have empty : helper.breakpointRegisters register = none := by
    simpa using List.find?_some free
  intro same
  have recorded := congrArg (·.get? threadId) same
  simp only [Debugger.setDebugReg, Debugger.withHelpers, Dict.get?_modify, found, if_true,
    Option.map_some, Option.some.injEq] at recorded
  have counts := congrArg HardwareBreakpointManager.breakpointCount recorded
  simp only at counts
  omega

theorem installBreakpoint_records (takes : TakesRegister s threadId register) :
    RecordsNothing k s threadId ref ↔ InstallCutShort k s threadId ref := by
  have run := run_installBreakpoint k ref takes
  cases condition : ctrlCondVal (s.objects ref).condition with
  | none =>
      rw [condition] at run
      exact iff_of_true (installBreakpoint_keeps_of_error run) (.inl condition)
  | some cond =>
      cases length : ctrlLenVal (s.objects ref).length with
      | none =>
          rw [condition, length] at run
          exact iff_of_true (installBreakpoint_keeps_of_error run) (.inr (.inl length))
      | some len =>
          rw [condition, length] at run
          cases peeked : k.peekuser (afterAddress k s threadId ref register) threadId dr7Offset with
          | none =>
              have unread : (peekUser k threadId dr7Offset).run
                  (beforeControl k s threadId ref register) =
                    .error (.raised (.osError (k.errno (afterAddress k s threadId ref register))))
                      (beforeControl k s threadId ref register) := by
                simp only [peekUser, EStateM.run_bind, EStateM.run_get]
                rw [show (beforeControl k s threadId ref register).world.os =
                  afterAddress k s threadId ref register from rfl, peeked]
                rfl
              rw [EStateM.run_bind, unread] at run
              exact iff_of_true (installBreakpoint_keeps_of_error run)
                ((installCutShort_iff takes).mpr (.inr (.inr peeked)))
          | some ctrl =>
              have read : (peekUser k threadId dr7Offset).run
                  (beforeControl k s threadId ref register) =
                    .ok ctrl (beforeControl k s threadId ref register) := by
                simp only [peekUser, EStateM.run_bind, EStateM.run_get]
                rw [show (beforeControl k s threadId ref register).world.os =
                  afterAddress k s threadId ref register from rfl, peeked]
                rfl
              simp only [EStateM.run_bind, read, run_pokeUser_eq, EStateM.run_modify] at run
              rw [installCutShort_iff takes, RecordsNothing, stateAfter_of_ok run, condition,
                length, peeked]
              apply iff_of_false
              · exact setDebugReg_helpers_ne takes _
              · simp

/-- An installation of which a write was rejected records nothing only if it ends before it
reaches `DR7`. -/
theorem installBreakpoint_reports_iff (k : Kernel K) (s : Debugger K) (threadId : Int)
    (ref : Ref) :
    (InstallRejected k s threadId ref → RecordsNothing k s threadId ref) ↔
      ¬ InstallRejected k s threadId ref ∨ InstallCutShort k s threadId ref := by
  by_cases rejected : InstallRejected k s threadId ref
  · simp only [rejected, true_implies, not_true, false_or]
    obtain ⟨register, takes, _⟩ := rejected
    exact installBreakpoint_records takes
  · simp only [rejected, false_implies, not_false_iff, true_or]

end Install

theorem pokeUser_reports_iff (k : Kernel K) (s : Debugger K) (threadId : Int)
    (address value : Nat) :
    (k.pokeuser s.world.os threadId address value = none →
        ∃ e t, (pokeUserCompared k threadId address value).run s =
          .error (.raised (.osError e)) t) ↔
      k.pokeuser s.world.os threadId address value ≠ none := by
  constructor
  · intro reports rejected
    obtain ⟨e, t, raised⟩ := reports rejected
    obtain ⟨u, returned⟩ := pokeUserCompared_returns (k := k) threadId address value s
    cases returned.symm.trans raised
  · intro accepted rejected
    exact absurd rejected accepted

/-- Rejected writes are reported only where something else is reported: never by the two
requests themselves, by a write through a key where its last word cannot be read, and by an
installation that ends early. -/
theorem rejected_writes_reported_iff (p : Access) (mem : Memory) (x data : Int)
    (process : Process) (key : Key) (value : List Byte) (k : Kernel K) (s : Debugger K)
    (threadId : Int) (offset word : Nat) (ref : Ref) :
    ((PokeRejected p x ∧ Fits data →
        ∃ e m, (pokeMemory p x data).run mem = .error (.osError e) m) ↔
      ¬ (PokeRejected p x ∧ Fits data)) ∧
    ((k.pokeuser s.world.os threadId offset word = none →
        ∃ e t, (pokeUserCompared k threadId offset word).run s =
          .error (.raised (.osError e)) t) ↔
      k.pokeuser s.world.os threadId offset word ≠ none) ∧
    ((TouchesUnwritable process p key value.length →
        ∃ message m, (setitem process p key value).run mem = .error (.valueError message) m) ↔
      ¬ TouchesUnwritable process p key value.length ∨
        (key.isSymbol = false ∧ ∃ address : Nat,
          writeTarget process key "hybrid" = .ok (address : Int) ∧
            LastWordUnreadable p address value.length)) ∧
    ((InstallRejected k s threadId ref → RecordsNothing k s threadId ref) ↔
      ¬ InstallRejected k s threadId ref ∨ InstallCutShort k s threadId ref) :=
  ⟨pokeMemory_reports_iff p mem x data, pokeUser_reports_iff k s threadId offset word,
    setitem_reports_iff process p mem key value, installBreakpoint_reports_iff k s threadId ref⟩

/-- Memory that can be read and not written, such as a file that is mapped shared -/
def readOnly : Access where
  readable _ := true
  writable _ := false
  errno := Layout.eio
  errno_ne_zero := Layout.eio_ne_zero

/-- A write to it returns, and writes nothing. -/
theorem readOnly_write_returns :
    readOnly.writable 0x1000 = false ∧
      (pokeMemory readOnly 0x1000 1).run blank = .ok () blank ∧
      (setitem binTrue readOnly (.range (.int 0x1000) 8) [1, 2, 3, 4, 5, 6, 7, 8]).run blank =
        .ok () blank := by
  constructor
  · rfl
  constructor
  · exact pokeMemory_rejected (by decide) (by decide)
  · rfl

end Libdebug.Ptrace
