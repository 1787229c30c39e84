import Libdebug.Data.MemoryKeys
import Libdebug.Foundation.Orbits

/-!
`Amd64StackUnwinder`: the saved frame pointers are followed from one frame to the next, as far
as they can be read and the return addresses beside them belong to a map. Nothing asks whether
a frame was visited before.
-/

namespace Libdebug.Architectures

open Libdebug.Foundation Libdebug.Cffi Libdebug.Data

variable (process : Process) (p : Access)

/-- `int.from_bytes(target.memory[address, 8], byteorder="little")` -/
def readNumber (address : Int) : Accessing Nat := do
  let data ← getitem process p (.range (.int address) 8)
  pure (fromBytes data).toNat

/-- `except (OSError, ValueError)` -/
def orElse {α : Type} (body handler : Accessing α) : Accessing α :=
  tryCatch body fun
    | .osError _ => handler
    | .valueError _ => handler
    | e => throw e

/-- The body of the loop: the return address and the saved frame pointer of a frame, unless the
loop ends there -/
def nextFrame (currentRbp : Nat) : Accessing (Option (Nat × Nat)) :=
  orElse (do
      let returnAddress ← readNumber process p (currentRbp + 8)
      if checkAbsoluteAddress returnAddress process.maps then
        let savedRbp ← readNumber process p currentRbp
        pure (some (returnAddress, savedRbp))
      else
        pure none)
    (pure none)

/-- The loop of `unwind`; there is no result where it has not ended after so many frames. -/
def frameWalk : Nat → Nat → List Nat → Accessing (Option (List Nat))
  | 0, _, _ => pure none
  | fuel + 1, currentRbp, stackTrace =>
      if currentRbp = 0 then
        pure (some stackTrace)
      else do
        match ← nextFrame process p currentRbp with
        | none => pure (some stackTrace)
        | some (returnAddress, savedRbp) =>
            frameWalk fuel savedRbp (stackTrace ++ [returnAddress])

/-- 0 outside of a preamble, 1 before `push rbp`, 2 before `mov rbp, rsp` -/
def preambleState (instructionWindow : List Byte) : Nat :=
  if [0xf3, 0x0f, 0x1e, 0xfa] <:+: instructionWindow ∨ [0x55] <:+: instructionWindow then 1
  else if [0x48, 0x89, 0xe5] <:+: instructionWindow then 2
  else 0

def getReturnAddress (regs : UserRegs) : Accessing Nat := do
  let instructionWindow ← getitem process p (.range (.int (regs .rip)) 4)
  if preambleState instructionWindow = 0 then
    readNumber process p (regs .rbp + 8)
  else if preambleState instructionWindow = 1 then
    readNumber process p (regs .rsp)
  else
    readNumber process p (regs .rsp + 8)

/-- The end of `unwind`. A trace of one element has no second one to compare with, and the
warning is a number that is called. -/
def insertFirst (regs : UserRegs) (stackTrace : List Nat) : Accessing (List Nat) :=
  orElse (do
      let firstReturnAddress ← getReturnAddress process p regs
      match stackTrace with
      | top :: second :: rest =>
          if firstReturnAddress ≠ second then pure (top :: firstReturnAddress :: second :: rest)
          else pure stackTrace
      | _ => throw .indexError)
    (throw .typeError)

def unwind (fuel : Nat) (regs : UserRegs) : Accessing (Option (List Nat)) := do
  match ← frameWalk process p fuel (regs .rbp) [regs .rip] with
  | none => pure none
  | some stackTrace =>
      let stackTrace ← insertFirst process p regs stackTrace
      pure (some stackTrace)

/-! ### The chain of frames -/

/-- The number that is read at an address in hybrid mode -/
def numberAt (mem : Memory) (address : Int) : Option Nat :=
  match (getitem process p (.range (.int address) 8)).run mem with
  | .ok data _ => some (fromBytes data).toNat
  | .error _ _ => none

/-- A frame pointer leads to the one that is saved at its address, if the return address beside
it belongs to a map. -/
def SavedFrame (mem : Memory) (rbp saved : Nat) : Prop :=
  rbp ≠ 0 ∧ (∃ returnAddress, numberAt process p mem (rbp + 8) = some returnAddress ∧
      checkAbsoluteAddress returnAddress process.maps = true) ∧
    numberAt process p mem rbp = some saved

variable {process : Process} {p : Access} {mem : Memory} {fuel rbp saved : Nat}
  {stackTrace : List Nat}

theorem savedFrame_unique : Relator.RightUnique (SavedFrame process p mem) := by
  rintro rbp saved other ⟨_, _, first⟩ ⟨_, _, second⟩
  exact Option.some.inj (first.symm.trans second)

/-- A saved frame pointer has 64 bits. -/
theorem savedFrame_finite : {saved | ∃ rbp, SavedFrame process p mem rbp saved}.Finite := by
  apply (Set.finite_lt_nat (2 ^ 64)).subset
  rintro saved ⟨rbp, _, _, read⟩
  unfold numberAt at read
  split at read
  · obtain rfl := Option.some.inj read
    exact (fromBytes _).isLt
  · cases read

/-! ### Reading -/

theorem readNumber_some {x : Int} {value : Nat}
    (read : numberAt process p mem x = some value) :
    (readNumber process p x).run mem = .ok value mem := by
  rcases getitem_range_outcome process p mem x (Nat.le_refl 8) with
    ⟨data, returned⟩ | ⟨message, raised⟩
  · change (getitem process p (.range (.int x) 8)).run mem = _ at returned
    unfold numberAt at read
    rw [returned] at read
    rw [readNumber, EStateM.run_bind, returned]
    exact congrArg (EStateM.Result.ok · mem) (Option.some.inj read)
  · change (getitem process p (.range (.int x) 8)).run mem = _ at raised
    unfold numberAt at read
    rw [raised] at read
    cases read

theorem readNumber_none {x : Int} (unread : numberAt process p mem x = none) :
    ∃ message, (readNumber process p x).run mem = .error (.valueError message) mem := by
  rcases getitem_range_outcome process p mem x (Nat.le_refl 8) with
    ⟨data, returned⟩ | ⟨message, raised⟩
  · change (getitem process p (.range (.int x) 8)).run mem = _ at returned
    unfold numberAt at unread
    rw [returned] at unread
    cases unread
  · change (getitem process p (.range (.int x) 8)).run mem = _ at raised
    refine ⟨message, ?_⟩
    rw [readNumber, EStateM.run_bind, raised]

section Handlers

variable {α : Type} {body handler : Accessing α} {m : Memory}

theorem orElse_ok {value : α} (returned : body.run mem = .ok value m) :
    (orElse body handler).run mem = .ok value m := by
  change EStateM.tryCatch body _ mem = _
  rw [EStateM.tryCatch]
  change body mem = _ at returned
  rw [returned]

theorem orElse_valueError (message : String)
    (raised : body.run mem = .error (.valueError message) m) :
    (orElse body handler).run mem = handler.run m := by
  change EStateM.tryCatch body _ mem = _
  rw [EStateM.tryCatch]
  change body mem = _ at raised
  rw [raised]
  rfl

end Handlers

/-! ### The walk -/

/-- A frame leads to the next one, or the walk ends there. -/
theorem run_nextFrame (process : Process) (p : Access) (mem : Memory) {rbp : Nat}
    (nonzero : rbp ≠ 0) :
    (∃ returnAddress saved, SavedFrame process p mem rbp saved ∧
        (nextFrame process p rbp).run mem = .ok (some (returnAddress, saved)) mem) ∨
      (Terminal (SavedFrame process p mem) rbp ∧
        (nextFrame process p rbp).run mem = .ok none mem) := by
  cases beside : numberAt process p mem (rbp + 8) with
  | none =>
      right
      obtain ⟨message, raised⟩ := readNumber_none beside
      constructor
      · rintro saved ⟨_, ⟨returnAddress, read, _⟩, _⟩
        cases beside.symm.trans read
      · apply orElse_valueError message
        rw [EStateM.run_bind, raised]
  | some returnAddress =>
      have read := readNumber_some beside
      cases inside : checkAbsoluteAddress returnAddress process.maps with
      | false =>
          right
          constructor
          · rintro saved ⟨_, ⟨other, same, within⟩, _⟩
            cases beside.symm.trans same
            cases inside.symm.trans within
          · apply orElse_ok
            rw [EStateM.run_bind, read]
            simp only [inside, Bool.false_eq_true, if_false]
            rfl
      | true =>
          cases saving : numberAt process p mem rbp with
          | none =>
              right
              obtain ⟨message, raised⟩ := readNumber_none saving
              constructor
              · rintro saved ⟨_, _, same⟩
                cases saving.symm.trans same
              · apply orElse_valueError message
                rw [EStateM.run_bind, read]
                simp only [inside, if_true, EStateM.run_bind, raised]
          | some saved =>
              left
              have readSaved := readNumber_some saving
              refine ⟨returnAddress, saved, ⟨nonzero, ⟨returnAddress, beside, inside⟩, saving⟩, ?_⟩
              apply orElse_ok
              rw [EStateM.run_bind, read]
              simp only [inside, if_true, EStateM.run_bind, readSaved]
              rfl

theorem terminal_zero : Terminal (SavedFrame process p mem) 0 := fun _ frame => frame.1 rfl

theorem frameWalk_zero : frameWalk process p (fuel + 1) 0 stackTrace = pure (some stackTrace) :=
  if_pos rfl

theorem frameWalk_succ (nonzero : rbp ≠ 0) :
    frameWalk process p (fuel + 1) rbp stackTrace = (do
      match ← nextFrame process p rbp with
      | none => pure (some stackTrace)
      | some (returnAddress, savedRbp) =>
          frameWalk process p fuel savedRbp (stackTrace ++ [returnAddress])) :=
  if_neg nonzero

/-- A walk over frames that end returns, and leaves the memory as it is. -/
theorem frameWalk_returns (ends : RunsOut (SavedFrame process p mem) rbp) :
    ∀ stackTrace, ∃ fuel trace,
      (frameWalk process p fuel rbp stackTrace).run mem = .ok (some trace) mem := by
  obtain ⟨last, path, terminal⟩ := ends
  induction path using Relation.ReflTransGen.head_induction_on with
  | refl =>
      intro stackTrace
      refine ⟨1, stackTrace, ?_⟩
      by_cases zero : last = 0
      · subst zero
        rw [frameWalk_zero]
        rfl
      · rcases run_nextFrame process p mem zero with ⟨_, saved, frame, _⟩ | ⟨_, stops⟩
        · exact absurd frame (terminal saved)
        · rw [frameWalk_succ zero, EStateM.run_bind, stops]
          rfl
  | head frame _ ih =>
      intro stackTrace
      rcases run_nextFrame process p mem frame.1 with ⟨returnAddress, saved, same, goes⟩ | ⟨none, _⟩
      · obtain rfl := savedFrame_unique same frame
        obtain ⟨fuel, trace, returned⟩ := ih (stackTrace ++ [returnAddress])
        refine ⟨fuel + 1, trace, ?_⟩
        rw [frameWalk_succ frame.1, EStateM.run_bind, goes]
        exact returned
      · exact absurd frame (none _)

/-- A walk that returns has come to the last frame. -/
theorem runsOut_of_frameWalk {trace : List Nat} :
    ∀ {rbp stackTrace}, (frameWalk process p fuel rbp stackTrace).run mem = .ok (some trace) mem →
      RunsOut (SavedFrame process p mem) rbp := by
  induction fuel with
  | zero =>
      intro rbp stackTrace returned
      cases returned
  | succ fuel ih =>
      intro rbp stackTrace returned
      by_cases zero : rbp = 0
      · subst zero
        exact terminal_zero.runsOut
      · rcases run_nextFrame process p mem zero with
          ⟨returnAddress, saved, frame, goes⟩ | ⟨terminal, _⟩
        · rw [frameWalk_succ zero, EStateM.run_bind, goes] at returned
          exact .head frame (ih returned)
        · exact terminal.runsOut

/-- On a stack whose frames lie one above the other the walk returns. -/
theorem frameWalk_returns_of_increasing
    (increasing : ∀ rbp saved, SavedFrame process p mem rbp saved → rbp < saved) :
    ∃ fuel trace, (frameWalk process p fuel rbp stackTrace).run mem = .ok (some trace) mem :=
  frameWalk_returns (runsOut_of_increasing savedFrame_finite increasing) stackTrace

/-- `unwind` goes on only as long as its loop does: what follows ends. -/
theorem unwind_eq_none_iff (process : Process) (p : Access) (mem : Memory) (regs : UserRegs) :
    (∃ m, (unwind process p fuel regs).run mem = .ok none m) ↔
      ∃ m, (frameWalk process p fuel (regs .rbp) [regs .rip]).run mem = .ok none m := by
  rw [unwind, EStateM.run_bind]
  cases walked : (frameWalk process p fuel (regs .rbp) [regs .rip]).run mem with
  | error e m =>
      apply iff_of_false
      · rintro ⟨_, ended⟩
        cases ended
      · rintro ⟨_, ended⟩
        cases ended
  | ok result m =>
      cases result with
      | none => exact iff_of_true ⟨m, rfl⟩ ⟨m, rfl⟩
      | some trace =>
          apply iff_of_false
          · rintro ⟨_, ended⟩
            simp only [EStateM.run_bind] at ended
            split at ended
            · cases ended
            · cases ended
          · rintro ⟨_, ended⟩
            cases ended

/-- The walk returns a trace if and only if no frame that it comes to leads back to itself. -/
theorem frameWalk_returns_iff (process : Process) (p : Access) (mem : Memory)
    (regs : UserRegs) :
    (∃ fuel trace,
        (frameWalk process p fuel (regs .rbp) [regs .rip]).run mem = .ok (some trace) mem) ↔
      AvoidsCycles (SavedFrame process p mem) (regs .rbp) := by
  rw [← runsOut_iff savedFrame_unique savedFrame_finite]
  constructor
  · rintro ⟨fuel, trace, returned⟩
    exact runsOut_of_frameWalk returned
  · intro ends
    exact frameWalk_returns ends [regs .rip]

/-- A frame at 0x1010 in which its own address is saved, with a return address of the map -/
def selfLinkedStack : Memory := store blank 0x1010 (toBytes 0x1010 ++ toBytes 0x1000)

theorem selfLinked : SavedFrame binTrue page.access selfLinkedStack 0x1010 0x1010 := by
  refine ⟨by decide, ⟨0x1000, ?_, ?_⟩, ?_⟩
  · rfl
  · rfl
  · rfl

/-- The walk over a frame that is linked to itself never returns. -/
theorem selfLinked_walks_on :
    ¬ ∃ fuel trace, (frameWalk binTrue page.access fuel 0x1010 [0x1000]).run selfLinkedStack =
      .ok (some trace) selfLinkedStack := by
  rintro ⟨fuel, trace, returned⟩
  have acyclic := (runsOut_of_frameWalk returned).avoidsCycles savedFrame_unique
  exact acyclic 0x1010 .refl (.single selfLinked)

end Libdebug.Architectures
