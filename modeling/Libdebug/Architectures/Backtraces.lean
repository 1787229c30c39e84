import Libdebug.Architectures.StackUnwinder

/-!
What `unwind` makes of the walk over the frames. The function that is entered or left has no
frame of its own yet; its return address is looked for apart from the walk and put before the
others, unless it equals the first of them. The recovery from a failed search raises itself.
-/

namespace Libdebug.Architectures

open Libdebug.Foundation Libdebug.Cffi Libdebug.Data

variable {process : Process} {p : Access} {mem : Memory} {fuel rbp : Nat} {regs : UserRegs}
  {stackTrace : List Nat}

/-! ### The return address of the current function -/

/-- The instructions at an address, if they can be read -/
def instructionsAt (process : Process) (p : Access) (mem : Memory) (rip : Nat) :
    Option (List Byte) :=
  match (getitem process p (.range (.int rip) 4)).run mem with
  | .ok data _ => some data
  | .error _ _ => none

/-- Where the return address is looked for -/
def returnSlot (regs : UserRegs) (instructionWindow : List Byte) : Int :=
  if preambleState instructionWindow = 0 then regs .rbp + 8
  else if preambleState instructionWindow = 1 then regs .rsp
  else regs .rsp + 8

/-- The return address of the current function, if all that it takes can be read -/
def firstReturnAddress (process : Process) (p : Access) (mem : Memory) (regs : UserRegs) :
    Option Nat :=
  (instructionsAt process p mem (regs .rip)).bind fun instructionWindow =>
    numberAt process p mem (returnSlot regs instructionWindow)

theorem getReturnAddress_eq (process : Process) (p : Access) (regs : UserRegs) :
    getReturnAddress process p regs = (do
      let instructionWindow ← getitem process p (.range (.int (regs .rip)) 4)
      readNumber process p (returnSlot regs instructionWindow)) := by
  unfold getReturnAddress returnSlot
  congr 1
  funext instructionWindow
  split
  · rfl
  · split
    · rfl
    · rfl

theorem getReturnAddress_some {value : Nat}
    (found : firstReturnAddress process p mem regs = some value) :
    (getReturnAddress process p regs).run mem = .ok value mem := by
  obtain ⟨instructionWindow, fetched, read⟩ := Option.bind_eq_some_iff.mp found
  rcases getitem_range_outcome process p mem (regs .rip) (show 4 ≤ 8 by decide) with
    ⟨data, returned⟩ | ⟨message, raised⟩
  · change (getitem process p (.range (.int (regs .rip)) 4)).run mem = _ at returned
    rw [instructionsAt, returned] at fetched
    obtain rfl := Option.some.inj fetched
    rw [getReturnAddress_eq, EStateM.run_bind, returned]
    exact readNumber_some read
  · change (getitem process p (.range (.int (regs .rip)) 4)).run mem = _ at raised
    rw [instructionsAt, raised] at fetched
    cases fetched

theorem getReturnAddress_none (missing : firstReturnAddress process p mem regs = none) :
    ∃ message, (getReturnAddress process p regs).run mem = .error (.valueError message) mem := by
  rcases getitem_range_outcome process p mem (regs .rip) (show 4 ≤ 8 by decide) with
    ⟨data, returned⟩ | ⟨message, raised⟩
  · change (getitem process p (.range (.int (regs .rip)) 4)).run mem = _ at returned
    rw [firstReturnAddress, instructionsAt, returned] at missing
    obtain ⟨message, raised⟩ := readNumber_none missing
    refine ⟨message, ?_⟩
    rw [getReturnAddress_eq, EStateM.run_bind, returned]
    exact raised
  · change (getitem process p (.range (.int (regs .rip)) 4)).run mem = _ at raised
    refine ⟨message, ?_⟩
    rw [getReturnAddress_eq, EStateM.run_bind, raised]

/-! ### The end of `unwind` -/

/-- An index error is not one of those that are caught. -/
theorem orElse_indexError {α : Type} {body handler : Accessing α} {m : Memory}
    (raised : body.run mem = .error .indexError m) :
    (orElse body handler).run mem = .error .indexError m := by
  change EStateM.tryCatch body _ mem = _
  rw [EStateM.tryCatch]
  change body mem = _ at raised
  rw [raised]
  rfl

/-- A return address goes before the others, unless it equals the first of them. -/
def withFirst (first second : Nat) (rest : List Nat) : List Nat :=
  if first ≠ second then first :: second :: rest else second :: rest

theorem insertFirst_some {first top second : Nat} {rest : List Nat}
    (found : firstReturnAddress process p mem regs = some first) :
    (insertFirst process p regs (top :: second :: rest)).run mem =
      .ok (top :: withFirst first second rest) mem := by
  apply orElse_ok
  rw [EStateM.run_bind, getReturnAddress_some found]
  unfold withFirst
  by_cases differs : first ≠ second
  · simp only [if_pos differs]
    rfl
  · simp only [if_neg differs]
    rfl

/-- There is no second element to compare with. -/
theorem insertFirst_single {first top : Nat}
    (found : firstReturnAddress process p mem regs = some first) :
    (insertFirst process p regs [top]).run mem = .error .indexError mem := by
  apply orElse_indexError
  rw [EStateM.run_bind, getReturnAddress_some found]
  rfl

/-- The warning is a number, and is called. -/
theorem insertFirst_none (missing : firstReturnAddress process p mem regs = none)
    (stackTrace : List Nat) :
    (insertFirst process p regs stackTrace).run mem = .error .typeError mem := by
  obtain ⟨message, raised⟩ := getReturnAddress_none missing
  apply (orElse_valueError message _).trans rfl
  rw [EStateM.run_bind, raised]

/-! ### The walk -/

/-- The walk adds return addresses, at least one if the first frame leads to another. -/
theorem frameWalk_trace {trace : List Nat} :
    ∀ {rbp stackTrace}, (frameWalk process p fuel rbp stackTrace).run mem = .ok (some trace) mem →
      ∃ returns, trace = stackTrace ++ returns ∧
        (returns ≠ [] ↔ ∃ saved, SavedFrame process p mem rbp saved) := by
  induction fuel with
  | zero =>
      intro rbp stackTrace walked
      cases walked
  | succ fuel ih =>
      intro rbp stackTrace walked
      by_cases zero : rbp = 0
      · subst zero
        rw [frameWalk_zero] at walked
        cases walked
        refine ⟨[], (List.append_nil _).symm, ?_⟩
        apply iff_of_false (fun nonempty => nonempty rfl)
        rintro ⟨saved, frame⟩
        exact terminal_zero saved frame
      · rcases run_nextFrame process p mem zero with
          ⟨returnAddress, saved, frame, goes⟩ | ⟨terminal, stops⟩
        · rw [frameWalk_succ zero, EStateM.run_bind, goes] at walked
          obtain ⟨returns, rfl, _⟩ := ih walked
          refine ⟨returnAddress :: returns, by simp, ?_⟩
          exact iff_of_true (List.cons_ne_nil _ _) ⟨saved, frame⟩
        · rw [frameWalk_succ zero, EStateM.run_bind, stops] at walked
          cases walked
          refine ⟨[], (List.append_nil _).symm, ?_⟩
          apply iff_of_false (fun nonempty => nonempty rfl)
          rintro ⟨saved, frame⟩
          exact terminal saved frame

theorem run_unwind {trace : List Nat}
    (walked : (frameWalk process p fuel (regs .rbp) [regs .rip]).run mem = .ok (some trace) mem) :
    (unwind process p fuel regs).run mem =
      (insertFirst process p regs trace >>= fun stackTrace => pure (some stackTrace)).run mem := by
  rw [unwind, EStateM.run_bind, walked]

/-- Once the walk has ended, `unwind` returns a list that begins with `rip` if and only if the
walk has found a return address, and the return address of the current function can be
determined. -/
theorem unwind_returns_iff {trace : List Nat}
    (walked : (frameWalk process p fuel (regs .rbp) [regs .rip]).run mem =
      .ok (some trace) mem) :
    (∃ returns, (unwind process p fuel regs).run mem = .ok (some (regs .rip :: returns)) mem) ↔
      (∃ saved, SavedFrame process p mem (regs .rbp) saved) ∧
        (firstReturnAddress process p mem regs).isSome := by
  obtain ⟨returns, rfl, linked⟩ := frameWalk_trace walked
  rw [run_unwind walked, ← linked, EStateM.run_bind]
  cases found : firstReturnAddress process p mem regs with
  | none =>
      rw [insertFirst_none found]
      apply iff_of_false
      · rintro ⟨_, returned⟩
        cases returned
      · rintro ⟨_, some⟩
        cases some
  | some first =>
      cases returns with
      | nil =>
          rw [List.append_nil, insertFirst_single found]
          apply iff_of_false
          · rintro ⟨_, returned⟩
            cases returned
          · rintro ⟨nonempty, _⟩
            exact nonempty rfl
      | cons second rest =>
          rw [List.singleton_append, insertFirst_some found]
          exact iff_of_true ⟨_, rfl⟩ ⟨List.cons_ne_nil _ _, rfl⟩

def registers (rip rbp rsp : Nat) : UserRegs
  | .rip => rip
  | .rbp => rbp
  | .rsp => rsp
  | _ => 0

/-- One frame, at 0x1010, with a return address of the map -/
def oneFrame : Memory := store blank 0x1010 (toBytes 0 ++ toBytes 0x1000)

theorem unwind_oneFrame :
    ∃ returns, (unwind binTrue page.access 2 (registers 0x1100 0x1010 0x1008)).run oneFrame =
      .ok (some (0x1100 :: returns)) oneFrame :=
  (unwind_returns_iff (show (frameWalk binTrue page.access 2 0x1010 [0x1100]).run oneFrame =
      .ok (some [0x1100, 0x1000]) oneFrame from rfl)).mpr
    ⟨⟨0, by decide, ⟨0x1000, rfl, rfl⟩, rfl⟩, rfl⟩

/-- With a frame pointer of zero the walk ends at once, and so it does at a frame that cannot be
read; the one `unwind` compares with an element that is not there, the other calls a number. -/
theorem unwind_raises :
    ((frameWalk binTrue page.access 1 0 [0x1100]).run blank = .ok (some [0x1100]) blank ∧
      (unwind binTrue page.access 1 (registers 0x1100 0 0x1008)).run blank =
        .error .indexError blank) ∧
    ((frameWalk binTrue page.access 1 0x5000 [0x1100]).run blank = .ok (some [0x1100]) blank ∧
      (unwind binTrue page.access 1 (registers 0x1100 0x5000 0x1008)).run blank =
        .error .typeError blank) := by
  refine ⟨⟨rfl, ?_⟩, rfl, ?_⟩
  · rfl
  · rfl

/-! ### The true call stack -/

section CallStack

variable (process p mem)

/-- A word of a map that can be read -/
def Holds (address value : Nat) : Prop :=
  checkAbsoluteAddress address process.maps = true ∧ p.readable address = true ∧
    (peekWord mem address).toNat = value

/-- The frames from a frame pointer on, each linked to that of its caller, and the return
addresses beside them. The last frame pointer is zero. -/
inductive Linked : Nat → List Nat → Prop
  | nil : Linked 0 []
  | cons {rbp saved returnAddress : Nat} {callers : List Nat} (nonzero : rbp ≠ 0)
      (beside : Holds process p mem (rbp + 8) returnAddress)
      (mapped : checkAbsoluteAddress returnAddress process.maps = true)
      (link : Holds process p mem rbp saved) (rest : Linked saved callers) :
      Linked rbp (returnAddress :: callers)

/-- Where `rip` stands in a function -/
inductive Prologue where
  | beforePush
  | beforeMov
  | established
  deriving DecidableEq

namespace Prologue

/-- The instruction that the place is named after comes first, or there is none of them. -/
def Starts : Prologue → List Byte → Prop
  | beforePush, window => [0xf3, 0x0f, 0x1e, 0xfa] <+: window ∨ [0x55] <+: window
  | beforeMov, window => [0x48, 0x89, 0xe5] <+: window
  | established, window =>
      ¬ ([0xf3, 0x0f, 0x1e, 0xfa] <:+: window ∨ [0x55] <:+: window) ∧
        ¬ [0x48, 0x89, 0xe5] <:+: window

/-- What lies on the stack. Before the frame is established the frame pointer is still that of
the caller. -/
def Stack (regs : UserRegs) : Prologue → List Nat → Prop
  | beforePush, returnAddress :: callers =>
      Holds process p mem (regs .rsp) returnAddress ∧ Linked process p mem (regs .rbp) callers
  | beforeMov, returnAddress :: callers =>
      Holds process p mem (regs .rsp) (regs .rbp) ∧
        Holds process p mem (regs .rsp + 8) returnAddress ∧
        Linked process p mem (regs .rbp) callers
  | established, returns => Linked process p mem (regs .rbp) returns
  | _, [] => False

end Prologue

/-- A thread that is stopped in a function: the innermost return address comes first. -/
structure StandsAt (regs : UserRegs) (prologue : Prologue) (returns : List Nat) : Prop where
  mapped : ∀ returnAddress ∈ returns, checkAbsoluteAddress returnAddress process.maps = true
  code : checkAbsoluteAddress (regs .rip) process.maps = true
  readable : p.readable (regs .rip) = true
  window : prologue.Starts (bytesAt mem (regs .rip) 4)
  stack : prologue.Stack process p mem regs returns

end CallStack

theorem numberAt_of_holds {address value : Nat} (holds : Holds process p mem address value) :
    numberAt process p mem address = some value := by
  obtain ⟨inside, readable, rfl⟩ := holds
  obtain ⟨place, bound, same⟩ := exists_natural_of_check inside
  obtain rfl := Int.ofNat.inj same
  have all : AllReadable p address 8 := by
    intro i first
    obtain rfl : i = 0 := by omega
    exact readable
  have read := run_invalidRead p mem address 8 (by omega)
  rw [if_pos all] at read
  have unfolded : getitem process p (.range (.int address) 8) = _ := getitem_range inside
  unfold numberAt
  rw [unfolded]
  change (match (invalidAddress ((ptraceMemory p).read address (8 : Nat))).run mem with
    | .ok data _ => _
    | .error _ _ => _) = _
  rw [read]
  exact congrArg (fun word : Word => some word.toNat) (fromBytes_bytesAt mem address)

theorem Linked.beside {returnAddress : Nat} {callers : List Nat}
    (linked : Linked process p mem rbp (returnAddress :: callers)) :
    Holds process p mem (rbp + 8) returnAddress := by
  cases linked with
  | cons _ beside => exact beside

/-- The walk collects the return addresses of the frames, as long as it is let to. -/
theorem run_frameWalk_linked {returns : List Nat} (linked : Linked process p mem rbp returns) :
    ∀ fuel stackTrace, (frameWalk process p fuel rbp stackTrace).run mem =
      if returns.length < fuel then .ok (some (stackTrace ++ returns)) mem else .ok none mem := by
  induction linked with
  | nil =>
      intro fuel stackTrace
      cases fuel with
      | zero => rfl
      | succ fuel =>
          rw [frameWalk_zero, if_pos (by exact Nat.zero_lt_succ fuel), List.append_nil]
          rfl
  | @cons rbp saved returnAddress callers nonzero beside mapped link _ ih =>
      intro fuel stackTrace
      cases fuel with
      | zero => rfl
      | succ fuel =>
          have goes : (nextFrame process p rbp).run mem =
              .ok (some (returnAddress, saved)) mem := by
            apply orElse_ok
            have read : (readNumber process p (rbp + 8)).run mem = _ :=
              readNumber_some (numberAt_of_holds beside)
            rw [EStateM.run_bind, read]
            simp only [mapped, if_true, EStateM.run_bind,
              readNumber_some (numberAt_of_holds link)]
            rfl
          rw [frameWalk_succ nonzero, EStateM.run_bind, goes]
          simp only [ih, List.append_assoc, List.singleton_append, List.length_cons,
            Nat.add_lt_add_iff_right]

theorem instructionsAt_of_code (inside : checkAbsoluteAddress (regs .rip) process.maps = true)
    (readable : p.readable (regs .rip) = true) :
    instructionsAt process p mem (regs .rip) = some (bytesAt mem (regs .rip) 4) := by
  obtain ⟨place, bound, same⟩ := exists_natural_of_check inside
  have all : AllReadable p (regs .rip) 4 := by
    intro i first
    obtain rfl : i = 0 := by omega
    exact readable
  have read := run_invalidRead p mem (regs .rip) 4 (by omega)
  rw [if_pos all] at read
  have unfolded : getitem process p (.range (.int (regs .rip)) 4) = _ := getitem_range inside
  unfold instructionsAt
  rw [unfolded]
  change (match (invalidAddress ((ptraceMemory p).read (regs .rip) (4 : Nat))).run mem with
    | .ok data _ => _
    | .error _ _ => _) = _
  rw [read]

theorem firstReturnAddress_of_code (inside : checkAbsoluteAddress (regs .rip) process.maps = true)
    (readable : p.readable (regs .rip) = true) :
    firstReturnAddress process p mem regs =
      numberAt process p mem (returnSlot regs (bytesAt mem (regs .rip) 4)) := by
  rw [firstReturnAddress, instructionsAt_of_code inside readable]
  rfl

/-- Over linked frames `unwind` returns one list only. -/
theorem unwind_linked {first second : Nat} {rest result : List Nat}
    (linked : Linked process p mem (regs .rbp) (second :: rest))
    (found : firstReturnAddress process p mem regs = some first) :
    (∃ fuel, (unwind process p fuel regs).run mem = .ok (some result) mem) ↔
      result = regs .rip :: withFirst first second rest := by
  have walk := fun fuel => run_frameWalk_linked linked fuel [regs .rip]
  have inserted : (insertFirst process p regs (regs .rip :: second :: rest)).run mem = _ :=
    insertFirst_some found
  constructor
  · rintro ⟨fuel, returned⟩
    have walked := walk fuel
    rw [unwind, EStateM.run_bind, walked] at returned
    by_cases enough : (second :: rest).length < fuel
    · rw [if_pos enough] at returned
      simp only [List.singleton_append, EStateM.run_bind, inserted] at returned
      cases returned
      rfl
    · rw [if_neg enough] at returned
      cases returned
  · rintro rfl
    refine ⟨(second :: rest).length + 1, ?_⟩
    have walked := walk ((second :: rest).length + 1)
    rw [if_pos (Nat.lt_succ_self _)] at walked
    rw [run_unwind walked, List.singleton_append, EStateM.run_bind, inserted]
    rfl

theorem withFirst_eq_iff {found first second : Nat} {rest : List Nat} :
    withFirst found second rest = first :: second :: rest ↔ found = first ∧ first ≠ second := by
  unfold withFirst
  by_cases differs : found ≠ second
  · rw [if_pos differs, List.cons.injEq, and_iff_left rfl]
    constructor
    · rintro rfl
      exact ⟨rfl, differs⟩
    · exact And.left
  · rw [if_neg differs]
    apply iff_of_false
    · intro same
      have longer := congrArg List.length same
      simp only [List.length_cons] at longer
      omega
    · rintro ⟨rfl, other⟩
      exact differs other

/-! ### The bytes at `rip` -/

theorem preambleState_established {window : List Byte}
    (plain : Prologue.established.Starts window) : preambleState window = 0 := by
  rw [preambleState, if_neg plain.1, if_neg plain.2]

theorem preambleState_beforePush {window : List Byte}
    (push : Prologue.beforePush.Starts window) : preambleState window = 1 :=
  if_pos (push.imp List.IsPrefix.isInfix List.IsPrefix.isInfix)

/-- The byte after `mov rbp, rsp` may look like `push rbp`. -/
theorem preambleState_beforeMov {window : List Byte} (four : window.length = 4)
    (mov : Prologue.beforeMov.Starts window) :
    preambleState window = if 0x55 ∈ window then 1 else 2 := by
  obtain ⟨after, rfl⟩ := mov
  obtain ⟨last, rfl⟩ : ∃ last, after = [last] := List.length_eq_one_iff.mp (by simpa using four)
  have noEndbr : ¬ [0xf3, 0x0f, 0x1e, 0xfa] <:+: ([0x48, 0x89, 0xe5] : List Byte) ++ [last] := by
    intro inside
    have same := inside.eq_of_length rfl
    cases same
  have single := List.singleton_infix_iff (0x55 : Byte) ([0x48, 0x89, 0xe5] ++ [last])
  rw [preambleState]
  by_cases push : 0x55 ∈ ([0x48, 0x89, 0xe5] : List Byte) ++ [last]
  · rw [if_pos (.inr (single.mpr push)), if_pos push]
  · rw [if_neg (not_or.mpr ⟨noEndbr, mt single.mp push⟩), if_neg push,
      if_pos ⟨[], [last], rfl⟩]

/-- The call stack is reported if and only if the frame is established, or the two innermost
return addresses differ and the byte after `mov rbp, rsp` is not taken for `push rbp`. (If it
is, the frame pointer that was saved is taken for the return address.) -/
theorem unwind_callStack_iff {prologue : Prologue} {first second : Nat} {rest : List Nat}
    (stands : StandsAt process p mem regs prologue (first :: second :: rest)) :
    (∃ fuel, (unwind process p fuel regs).run mem =
        .ok (some (regs .rip :: first :: second :: rest)) mem) ↔
      prologue = .established ∨ first ≠ second ∧
        (prologue = .beforeMov → 0x55 ∈ bytesAt mem (regs .rip) 4 → regs .rbp = first) := by
  have found : firstReturnAddress process p mem regs = _ :=
    firstReturnAddress_of_code stands.code stands.readable
  have window := stands.window
  have stack := stands.stack
  cases prologue with
  | established =>
      rw [returnSlot, if_pos (preambleState_established window)] at found
      have read := found.trans (numberAt_of_holds (Linked.beside stack))
      rw [unwind_linked stack read]
      exact iff_of_true (by rw [withFirst, if_neg (not_not.mpr rfl)]) (.inl rfl)
  | beforePush =>
      obtain ⟨top, linked⟩ := stack
      rw [returnSlot, preambleState_beforePush window, if_neg (by decide), if_pos rfl,
        numberAt_of_holds top] at found
      rw [unwind_linked linked found, List.cons.injEq, eq_comm (a := first :: _),
        withFirst_eq_iff]
      constructor
      · rintro ⟨_, _, differs⟩
        refine .inr ⟨differs, ?_⟩
        intro other
        cases other
      · rintro (other | ⟨differs, _⟩)
        · cases other
        · exact ⟨rfl, rfl, differs⟩
  | beforeMov =>
      obtain ⟨top, above, linked⟩ := stack
      have state := preambleState_beforeMov (length_bytesAt mem (regs .rip) 4) window
      by_cases push : 0x55 ∈ bytesAt mem (regs .rip) 4
      · rw [if_pos push] at state
        rw [returnSlot, state, if_neg (by decide), if_pos rfl, numberAt_of_holds top] at found
        rw [unwind_linked linked found, List.cons.injEq, eq_comm (a := first :: _),
          withFirst_eq_iff]
        constructor
        · rintro ⟨_, same, differs⟩
          exact .inr ⟨differs, fun _ _ => same⟩
        · rintro (other | ⟨differs, same⟩)
          · cases other
          · exact ⟨rfl, same rfl push, differs⟩
      · rw [if_neg push] at state
        have read := numberAt_of_holds above
        rw [returnSlot, state, if_neg (by decide), if_neg (by decide)] at found
        rw [unwind_linked linked (found.trans read), List.cons.injEq, eq_comm (a := first :: _),
          withFirst_eq_iff]
        constructor
        · rintro ⟨_, _, differs⟩
          exact .inr ⟨differs, fun _ taken => absurd taken push⟩
        · rintro (other | ⟨differs, _⟩)
          · cases other
          · exact ⟨rfl, rfl, differs⟩

/-- A function that has been called from 0x1200, before its `push rbp` -/
def calledFrom (outer : Word) : Memory :=
  store (store blank 0x1100 [0x55]) 0x1800
    (toBytes 0x1200 ++ toBytes 0 ++ toBytes 0 ++ toBytes outer)

theorem calledFrom_stands (outer : Word)
    (mapped : checkAbsoluteAddress outer.toNat binTrue.maps = true)
    (pushed : (peekWord (calledFrom outer) 0x1818).toNat = outer.toNat)
    (top : (peekWord (calledFrom outer) 0x1800).toNat = 0x1200)
    (last : (peekWord (calledFrom outer) 0x1810).toNat = 0)
    (code : calledFrom outer 0x1100 = 0x55) :
    StandsAt binTrue page.access (calledFrom outer) (registers 0x1100 0x1810 0x1800)
      .beforePush [0x1200, outer.toNat] where
  mapped := by
    intro returnAddress member
    rcases List.mem_pair.mp member with rfl | rfl
    · decide
    · exact mapped
  code := by decide
  readable := by decide
  window := .inr ⟨_, congrArg (· :: _) code.symm⟩
  stack := ⟨⟨by decide, by decide, top⟩,
    .cons (by decide) ⟨by decide, by decide, pushed⟩ mapped ⟨by decide, by decide, last⟩ .nil⟩

theorem unwind_calledFrom :
    ∃ fuel, (unwind binTrue page.access fuel (registers 0x1100 0x1810 0x1800)).run
      (calledFrom 0x1300) = .ok (some [0x1100, 0x1200, 0x1300]) (calledFrom 0x1300) :=
  (unwind_callStack_iff (calledFrom_stands 0x1300 (by decide) rfl rfl rfl rfl)).mpr
    (.inr ⟨by decide, by decide⟩)

/-- In a function that calls itself one of two equal return addresses is left out. -/
theorem recursion_unwound_short :
    StandsAt binTrue page.access (calledFrom 0x1200) (registers 0x1100 0x1810 0x1800)
        .beforePush [0x1200, 0x1200] ∧
      ∀ result, (∃ fuel, (unwind binTrue page.access fuel (registers 0x1100 0x1810 0x1800)).run
          (calledFrom 0x1200) = .ok (some result) (calledFrom 0x1200)) ↔
        result = [0x1100, 0x1200] := by
  have stands := calledFrom_stands 0x1200 (by decide) rfl rfl rfl rfl
  constructor
  · exact stands
  · intro result
    exact unwind_linked stands.stack.2 (show firstReturnAddress binTrue page.access
      (calledFrom 0x1200) (registers 0x1100 0x1810 0x1800) = some 0x1200 from rfl)

end Libdebug.Architectures
