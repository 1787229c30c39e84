import Libdebug.Cffi.SingleSteps

/-!
`stepping_finish`. The loop classifies the instruction that a step has led to, so the one at
which it begins is executed without having been looked at, and so is the one before it, where
the thread first has to be stepped over a breakpoint. The loop finds the return of the frame
if and only if what is executed so neither calls nor returns on balance
(`steppingFinish_finishes_iff`).
-/

namespace Libdebug.Cffi

open Libdebug.Foundation

namespace Stepping

variable {K : Type} (k : Kernel K) (x : Stepping K)

/-! ### The rounds of the loop -/

/-- The window at the instruction pointer after so many rounds -/
def window (n : Nat) : Word :=
  (x.after k .steppingFinish n).2.peekdata (x.ip k .steppingFinish n)

/-- A round after which the loop is left at once: the instruction pointer is where it was, or
at a trap. -/
abbrev Halts (n : Nat) : Prop :=
  x.ip k .steppingFinish (n + 1) = x.ip k .steppingFinish n ∨
    isSwBreakpoint (x.window k (n + 1)) = true

/-- The counter of nested calls after so many rounds -/
def counter : Nat → Int
  | 0 => 1
  | n + 1 => countNestedCalls (x.window k (n + 1)) (counter n)

/-- The round is taken, and the loop goes on after it. -/
structure GoesOn (n : Nat) : Prop where
  steps : x.steps k .steppingFinish n = true
  passes : ¬ x.Halts k n
  nested : 0 < x.counter k (n + 1)

/-- The loop with a fuel, after so many rounds -/
def finishLoop (fuel n : Nat) : FinishLoop × GlobalState × World K :=
  steppingFinishLoop k x.tid x.file fuel (x.counter k n) (x.after k .steppingFinish n).1
    (x.after k .steppingFinish n).2

variable {k x} {fuel n : Nat}

/-- One round of the loop -/
theorem finishLoop_succ (stepped : x.steps k .steppingFinish n = true) :
    x.finishLoop k (fuel + 1) n =
      if x.ip k .steppingFinish (n + 1) = x.ip k .steppingFinish n ∨
          isSwBreakpoint (x.window k (n + 1)) = true then
        (.cleanup, x.after k .steppingFinish (n + 1))
      else if x.counter k (n + 1) > 0 then x.finishLoop k fuel (n + 1)
      else (.atReturn, x.after k .steppingFinish (n + 1)) := by
  obtain ⟨w, requested, afterwards⟩ := after_succ_of_steps stepped
  rw [finishLoop, steppingFinishLoop, requested]
  simp only [finishLoop, counter, window, ip, afterwards]

theorem finishLoop_goesOn (goesOn : x.GoesOn k n) :
    x.finishLoop k (fuel + 1) n = x.finishLoop k fuel (n + 1) := by
  rw [finishLoop_succ goesOn.steps, if_neg goesOn.passes, if_pos goesOn.nested]

theorem finishLoop_halts (stepped : x.steps k .steppingFinish n = true) (halts : x.Halts k n) :
    x.finishLoop k (fuel + 1) n = (.cleanup, x.after k .steppingFinish (n + 1)) := by
  rw [finishLoop_succ stepped, if_pos halts]

theorem finishLoop_returns (stepped : x.steps k .steppingFinish n = true)
    (passes : ¬ x.Halts k n) (unnested : x.counter k (n + 1) ≤ 0) :
    x.finishLoop k (fuel + 1) n = (.atReturn, x.after k .steppingFinish (n + 1)) := by
  rw [finishLoop_succ stepped, if_neg passes, if_neg (not_lt.mpr unnested)]

theorem finishLoop_fails (failed : x.steps k .steppingFinish n = false) :
    x.finishLoop k (fuel + 1) n = (.failed, x.after k .steppingFinish n) := by
  rw [finishLoop, steppingFinishLoop, singlestep_of_not_steps failed]

theorem finishLoop_add (fuel m : Nat) (goesOn : ∀ i, i < m → x.GoesOn k i) :
    x.finishLoop k (fuel + m) 0 = x.finishLoop k fuel m := by
  induction m generalizing fuel with
  | zero => rfl
  | succ m ih =>
      calc x.finishLoop k (fuel + (m + 1)) 0
          = x.finishLoop k (fuel + 1 + m) 0 := by congr 1; omega
        _ = x.finishLoop k (fuel + 1) m := ih _ fun i before => goesOn i (by omega)
        _ = x.finishLoop k fuel (m + 1) := finishLoop_goesOn (goesOn m (Nat.lt_succ_self m))

/-- Where the first round that does not let the loop go on is reached -/
theorem exists_exit_of_finishLoop (ended : (x.finishLoop k fuel 0).1 ≠ .stepping) :
    ∃ m, m < fuel ∧ (∀ i, i < m → x.GoesOn k i) ∧ ¬ x.GoesOn k m := by
  classical
  have exits : ∃ m, ¬ x.GoesOn k m := by
    by_contra goesOn
    push Not at goesOn
    have rounds := finishLoop_add 0 fuel fun i _ => goesOn i
    rw [Nat.zero_add] at rounds
    rw [rounds] at ended
    exact ended rfl
  have earlier : ∀ i, i < Nat.find exits → x.GoesOn k i := fun i before =>
    not_not.mp (Nat.find_min exits before)
  refine ⟨Nat.find exits, ?_, earlier, Nat.find_spec exits⟩
  by_contra outside
  have rounds := finishLoop_add 0 fuel fun i before => earlier i (by omega)
  rw [Nat.zero_add] at rounds
  rw [rounds] at ended
  exact ended rfl

end Stepping

/-! ### The whole function -/

variable {K : Type}

/-- What `stepping_finish` steps: the first thread of the list with the id, once
`prepare_for_run` is done. -/
def steppingFrame (k : Kernel K) (g : GlobalState) (w : World K) (tid : Int) :
    Option (Stepping K) :=
  (g.tHead.find? (·.tid = tid)).map fun t => ⟨tid, t.regs, (g, (prepareForRun k g w).2)⟩

/-- Any installed breakpoint is removed from memory. -/
def cleanedUp (s : GlobalState × World K) : GlobalState × World K :=
  (s.1, restoreBreakpoints s.1 s.2)

variable {k : Kernel K} {g : GlobalState} {w : World K} {tid : Int} {fuel n : Nat}
  {x : Stepping K} {s : GlobalState × World K}

section Whole

variable (found : steppingFrame k g w tid = some x)

include found

theorem steppingFinish_stepping (ended : x.finishLoop k fuel 0 = (.stepping, s)) :
    steppingFinish k fuel g w tid = (none, s) := by
  obtain ⟨t, there, rfl⟩ := Option.map_eq_some_iff.mp found
  have ended : steppingFinishLoop k tid t.regs fuel 1 g (prepareForRun k g w).2 =
      (.stepping, s) := ended
  simp only [steppingFinish, there, ended]

theorem steppingFinish_failed (ended : x.finishLoop k fuel 0 = (.failed, s)) :
    steppingFinish k fuel g w tid = (some (-1), s) := by
  obtain ⟨t, there, rfl⟩ := Option.map_eq_some_iff.mp found
  have ended : steppingFinishLoop k tid t.regs fuel 1 g (prepareForRun k g w).2 =
      (.failed, s) := ended
  simp only [steppingFinish, there, ended]

theorem steppingFinish_cleanup (ended : x.finishLoop k fuel 0 = (.cleanup, s)) :
    steppingFinish k fuel g w tid = (some 0, cleanedUp s) := by
  obtain ⟨t, there, rfl⟩ := Option.map_eq_some_iff.mp found
  have ended : steppingFinishLoop k tid t.regs fuel 1 g (prepareForRun k g w).2 =
      (.cleanup, s) := ended
  simp only [steppingFinish, there, ended, cleanedUp]

/-- At a return instruction the last step is done. -/
theorem steppingFinish_atReturn
    (ended : x.finishLoop k fuel 0 = (.atReturn, x.after k .steppingFinish n)) :
    steppingFinish k fuel g w tid =
      if x.steps k .steppingFinish n then (some 0, cleanedUp (x.after k .steppingFinish (n + 1)))
      else (some (-1), x.after k .steppingFinish n) := by
  obtain ⟨t, there, rfl⟩ := Option.map_eq_some_iff.mp found
  have ended : steppingFinishLoop k tid t.regs fuel 1 g (prepareForRun k g w).2 =
      (.atReturn, _) := ended
  cases stepped : Stepping.steps k .steppingFinish
      ⟨tid, t.regs, (g, (prepareForRun k g w).2)⟩ n with
  | false =>
      have failed := Stepping.singlestep_of_not_steps stepped
      simp only [steppingFinish, there, ended, failed]
      rfl
  | true =>
      obtain ⟨w', requested, afterwards⟩ := Stepping.after_succ_of_steps stepped
      simp only [steppingFinish, there, ended, requested, afterwards, cleanedUp]
      rfl

end Whole

/-- It returns 0 with the thread so many steps on. -/
def Finishes (k : Kernel K) (g : GlobalState) (w : World K) (x : Stepping K) (n : Nat) : Prop :=
  ∃ fuel, steppingFinish k fuel g w x.tid = (some 0, cleanedUp (x.after k .steppingFinish n))

/-- The two ways to return 0: at once after a round, or by one more step after one that leads
to the last return. -/
inductive FinishesAt (k : Kernel K) (x : Stepping K) : Nat → Prop where
  | halted {m : Nat} : (∀ i, i < m → x.GoesOn k i) → x.steps k .steppingFinish m = true →
      x.Halts k m → FinishesAt k x (m + 1)
  | returned {m : Nat} : (∀ i, i < m → x.GoesOn k i) → x.steps k .steppingFinish m = true →
      ¬ x.Halts k m → x.counter k (m + 1) ≤ 0 → x.steps k .steppingFinish (m + 1) = true →
      FinishesAt k x (m + 2)

theorem FinishesAt.steps (at' : FinishesAt k x n) :
    ∀ i, i < n → x.steps k .steppingFinish i = true := by
  cases at' with
  | halted goesOn stepped _ =>
      intro i before
      rcases Nat.lt_succ_iff_lt_or_eq.mp before with earlier | rfl
      · exact (goesOn i earlier).steps
      · exact stepped
  | returned goesOn stepped _ _ last =>
      intro i before
      rcases Nat.lt_succ_iff_lt_or_eq.mp before with earlier | rfl
      · rcases Nat.lt_succ_iff_lt_or_eq.mp earlier with first | rfl
        · exact (goesOn i first).steps
        · exact stepped
      · exact last

theorem FinishesAt.finishes (found : steppingFrame k g w x.tid = some x)
    (at' : FinishesAt k x n) : Finishes k g w x n := by
  cases at' with
  | @halted m goesOn stepped halts =>
      refine ⟨1 + m, steppingFinish_cleanup found ?_⟩
      rw [Stepping.finishLoop_add _ _ goesOn]
      exact Stepping.finishLoop_halts stepped halts
  | @returned m goesOn stepped passes unnested last =>
      refine ⟨1 + m, ?_⟩
      have ended : x.finishLoop k (1 + m) 0 = (.atReturn, x.after k .steppingFinish (m + 1)) := by
        rw [Stepping.finishLoop_add _ _ goesOn]
        exact Stepping.finishLoop_returns stepped passes unnested
      rw [steppingFinish_atReturn found ended, if_pos last]

/-- Whatever it returns 0 with is reached in one of the two ways. -/
theorem finishesAt_of_returned (found : steppingFrame k g w tid = some x)
    (returned : steppingFinish k fuel g w tid = (some 0, s)) :
    ∃ n, FinishesAt k x n ∧ s = cleanedUp (x.after k .steppingFinish n) := by
  have ended : (x.finishLoop k fuel 0).1 ≠ .stepping := by
    intro stepping
    rw [steppingFinish_stepping found (Prod.ext stepping rfl)] at returned
    cases returned
  obtain ⟨m, inside, goesOn, exit⟩ := Stepping.exists_exit_of_finishLoop ended
  obtain ⟨left, rfl⟩ : ∃ left, fuel = left + 1 + m := ⟨fuel - m - 1, by omega⟩
  have rounds := Stepping.finishLoop_add (left + 1) _ goesOn
  cases stepped : x.steps k .steppingFinish m with
  | false =>
      rw [steppingFinish_failed found (rounds.trans (Stepping.finishLoop_fails stepped))]
        at returned
      cases returned
  | true =>
      by_cases halts : x.Halts k m
      · rw [steppingFinish_cleanup found
          (rounds.trans (Stepping.finishLoop_halts stepped halts))] at returned
        cases returned
        exact ⟨m + 1, .halted goesOn stepped halts, rfl⟩
      · have unnested : x.counter k (m + 1) ≤ 0 := by
          by_contra nested
          exact exit ⟨stepped, halts, by omega⟩
        rw [steppingFinish_atReturn found
          (rounds.trans (Stepping.finishLoop_returns stepped halts unnested))] at returned
        cases last : x.steps k .steppingFinish (m + 1) with
        | false =>
            rw [last] at returned
            cases returned
        | true =>
            rw [last] at returned
            cases returned
            exact ⟨m + 2, .returned goesOn stepped halts unnested last, rfl⟩

/-- The history tells how many steps have been made. -/
theorem eq_of_cleanedUp {m : Nat} (steps : ∀ i, i < n → x.steps k .steppingFinish i = true)
    (otherSteps : ∀ i, i < m → x.steps k .steppingFinish i = true)
    (same : cleanedUp (x.after k .steppingFinish n) = cleanedUp (x.after k .steppingFinish m)) :
    n = m := by
  have logs := congrArg (·.2.log.length) same
  simp only [cleanedUp, restoreBreakpoints_eq] at logs
  rcases Nat.lt_trichotomy n m with fewer | rfl | more
  · have grown := Stepping.log_lt k .steppingFinish x fewer
      fun i _ before => otherSteps i before
    omega
  · rfl
  · have grown := Stepping.log_lt k .steppingFinish x more
      fun i _ before => steps i before
    omega

theorem finishes_iff (found : steppingFrame k g w x.tid = some x)
    (steps : ∀ i, i < n → x.steps k .steppingFinish i = true) :
    Finishes k g w x n ↔ FinishesAt k x n := by
  constructor
  · rintro ⟨fuel, returned⟩
    obtain ⟨m, at', same⟩ := finishesAt_of_returned found returned
    rw [eq_of_cleanedUp steps at'.steps same]
    exact at'
  · exact FinishesAt.finishes found

/-! ### The instructions of the thread -/

inductive Transfer where
  | call
  | ret
  | other
  deriving DecidableEq, Repr

/-- By how much an instruction changes the depth of nested calls. -/
def Transfer.change : Transfer → Int
  | .call => 1
  | .ret => -1
  | .other => 0

/-- The instructions that a thread executes from the one it is at: their addresses, and which
of them are calls and returns. -/
structure Trace where
  addr : Nat → Nat
  transfer : Nat → Transfer

/-- The depth below the frame of the first instruction, before one of them -/
def Trace.depth (trace : Trace) : Nat → Int
  | 0 => 0
  | n + 1 => trace.depth n + (trace.transfer n).change

/-- Calls and returns nest up to the return of the frame that the trace begins in. -/
structure Trace.OwnReturn (trace : Trace) (r : Nat) : Prop where
  nested : ∀ i, i ≤ r → 0 ≤ trace.depth i
  ret : trace.transfer r = .ret
  level : trace.depth r = 0

/-- A breakpoint of the table lies at the current instruction, switched on or not: it is
stepped over first. -/
def Stepping.ahead (x : Stepping K) : Nat :=
  if hitsBreakpoint x.start.1.bHead (instructionPointer (x.start.1.files x.file)) then 1 else 0

/-- The breakpoint at the current instruction is switched on. -/
def Stepping.Armed (x : Stepping K) : Prop :=
  instructionPointer (x.start.1.files x.file) ∈ x.start.1.enabledAddrs

/-- The thread executes the trace up to the return of its frame, one instruction a round. It
meets no trap but the one at its first instruction, and what else is a call or a return is
recognised as one. -/
structure Executes (k : Kernel K) (x : Stepping K) (trace : Trace) (r : Nat) : Prop where
  steps : ∀ n, x.ahead + n ≤ r → x.steps k .steppingFinish n = true
  current : x.ip k .steppingFinish 0 = trace.addr 0
  follows : ∀ n, x.ahead + n ≤ r →
    x.ip k .steppingFinish (n + 1) = trace.addr (x.ahead + (n + 1))
  traps : ∀ n, x.ahead + n ≤ r → (isSwBreakpoint (x.window k (n + 1)) = true ↔
    x.Armed ∧ trace.addr (x.ahead + (n + 1)) = trace.addr 0)
  calls : ∀ n, x.ahead + n < r → isSwBreakpoint (x.window k (n + 1)) = false →
    (isCallInstruction (x.window k (n + 1)) = true ↔ trace.transfer (x.ahead + (n + 1)) = .call)
  returns : ∀ n, x.ahead + n < r → isSwBreakpoint (x.window k (n + 1)) = false →
    (isRetInstruction (x.window k (n + 1)) = true ↔ trace.transfer (x.ahead + (n + 1)) = .ret)

/-- The instruction at which the thread was seen before an instruction of the trace -/
def Stepping.seenBefore (x : Stepping K) (trace : Trace) (i : Nat) : Nat :=
  if i = x.ahead + 1 then trace.addr 0 else trace.addr (i - 1)

/-- An instruction of the trace ends the loop: it is where the one before was seen, or at the
breakpoint. -/
def Stepping.Ends (x : Stepping K) (trace : Trace) (i : Nat) : Prop :=
  trace.addr i = x.seenBefore trace i ∨ (x.Armed ∧ trace.addr i = trace.addr 0)

/-- The return of the frame is found. The instructions that are executed without having been
looked at call and return in balance and come before it, and none up to it ends the loop. Or
else it is the last of those, and leads to the current instruction. -/
def Stepping.Findable (x : Stepping K) (trace : Trace) (r : Nat) : Prop :=
  (x.ahead < r ∧ trace.depth (x.ahead + 1) = 0 ∧
    ∀ i, x.ahead < i → i ≤ r → ¬ x.Ends trace i) ∨
  (r = x.ahead ∧ trace.addr (r + 1) = trace.addr 0)

section Traced

variable {trace : Trace} {r : Nat}

theorem Trace.OwnReturn.depth_succ (own : trace.OwnReturn r) : trace.depth (r + 1) = -1 := by
  rw [Trace.depth, own.level, own.ret]
  rfl

namespace Executes

/-- A round ends the loop if and only if its instruction does. -/
theorem halts_iff (executes : Executes k x trace r) (inside : x.ahead + n ≤ r) :
    x.Halts k n ↔ x.Ends trace (x.ahead + (n + 1)) := by
  have before : x.ip k .steppingFinish n = x.seenBefore trace (x.ahead + (n + 1)) := by
    unfold Stepping.seenBefore
    cases n with
    | zero => rw [if_pos rfl, executes.current]
    | succ n =>
        rw [if_neg (by omega), executes.follows n (by omega)]
        rfl
  rw [Stepping.Halts, Stepping.Ends, executes.follows n inside, before, executes.traps n inside]

theorem counter_succ (executes : Executes k x trace r) (inside : x.ahead + n < r)
    (passes : ¬ x.Halts k n) : x.counter k (n + 1) =
      x.counter k n + (trace.transfer (x.ahead + (n + 1))).change := by
  have noTrap : isSwBreakpoint (x.window k (n + 1)) = false :=
    Bool.eq_false_iff.mpr fun trap => passes (.inr trap)
  have calls := executes.calls n inside noTrap
  have returns := executes.returns n inside noTrap
  rw [Stepping.counter, countNestedCalls]
  cases transfer : trace.transfer (x.ahead + (n + 1)) with
  | call =>
      rw [if_pos (calls.mpr transfer)]
      rfl
  | ret =>
      rw [if_neg (by rw [calls, transfer]; decide), if_pos (returns.mpr transfer)]
      rfl
  | other =>
      rw [if_neg (by rw [calls, transfer]; decide), if_neg (by rw [returns, transfer]; decide)]
      exact (Int.add_zero _).symm

/-- The counter is the depth, counted from the first instruction that is looked at. -/
theorem counter_eq (executes : Executes k x trace r) (inside : x.ahead + n ≤ r)
    (passes : ∀ i, i < n → ¬ x.Halts k i) :
    x.counter k n = 1 + trace.depth (x.ahead + n + 1) - trace.depth (x.ahead + 1) := by
  induction n with
  | zero =>
      rw [Stepping.counter, Nat.add_zero]
      omega
  | succ n ih =>
      have before := ih (by omega) fun i earlier => passes i (by omega)
      have here := executes.counter_succ (by omega) (passes n (Nat.lt_succ_self n))
      have depth : trace.depth (x.ahead + (n + 1) + 1) =
          trace.depth (x.ahead + n + 1) + (trace.transfer (x.ahead + (n + 1))).change := rfl
      omega

theorem findable_of_finishesAt (executes : Executes k x trace r) (own : trace.OwnReturn r)
    (whole : x.ahead + n = r + 1) (at' : FinishesAt k x n) : x.Findable trace r := by
  have last := own.depth_succ
  cases at' with
  | @halted m goesOn _ halts =>
      have atReturn : x.ahead + m = r := by omega
      have ends := (executes.halts_iff (n := m) (by omega)).mp halts
      cases m with
      | zero =>
          rw [Nat.add_zero] at atReturn
          rw [Stepping.Ends, Stepping.seenBefore, if_pos rfl] at ends
          rw [← atReturn]
          exact .inr ⟨rfl, ends.elim id fun trapped => trapped.2⟩
      | succ m =>
          -- the counter would have reached zero a round before
          have nested := (goesOn m (Nat.lt_succ_self m)).nested
          have counted := executes.counter_eq (n := m + 1) (by omega) fun i before =>
            (goesOn i before).passes
          have level := own.nested (x.ahead + 1) (by omega)
          rw [atReturn] at counted
          omega
  | @returned m goesOn _ passes unnested _ =>
      have atReturn : x.ahead + (m + 1) = r := by omega
      have passesAll : ∀ i, i < m + 1 → ¬ x.Halts k i := by
        intro i before
        rcases Nat.lt_succ_iff_lt_or_eq.mp before with earlier | rfl
        · exact (goesOn i earlier).passes
        · exact passes
      have level := own.nested (x.ahead + 1) (by omega)
      have balanced : trace.depth (x.ahead + 1) = 0 := by
        cases m with
        | zero => exact atReturn ▸ own.level
        | succ m =>
            have nested := (goesOn m (Nat.lt_succ_self m)).nested
            have counted := executes.counter_eq (n := m + 1) (by omega) fun i before =>
              passesAll i (by omega)
            have depth : trace.depth (x.ahead + (m + 1) + 1) = 0 := by
              rw [Nat.add_assoc, atReturn]
              exact own.level
            omega
      refine .inl ⟨by omega, balanced, ?_⟩
      intro i after upTo ends
      obtain ⟨j, rfl⟩ : ∃ j, i = x.ahead + (j + 1) := ⟨i - x.ahead - 1, by omega⟩
      exact passesAll j (by omega) ((executes.halts_iff (by omega)).mpr ends)

theorem finishesAt_of_findable (executes : Executes k x trace r) (own : trace.OwnReturn r)
    (findable : x.Findable trace r) : ∃ n, x.ahead + n = r + 1 ∧ FinishesAt k x n := by
  have last := own.depth_succ
  rcases findable with ⟨further, balanced, passes⟩ | ⟨atOnce, back⟩
  · obtain ⟨m, rfl⟩ : ∃ m, r = x.ahead + (m + 1) := ⟨r - x.ahead - 1, by omega⟩
    have passesAll : ∀ i, i < m + 1 → ¬ x.Halts k i := by
      intro i before halts
      exact passes _ (by omega) (by omega) ((executes.halts_iff (by omega)).mp halts)
    refine ⟨m + 2, by omega, .returned ?_ (executes.steps m (by omega))
      (passesAll m (Nat.lt_succ_self m)) ?_ (executes.steps (m + 1) (Nat.le_refl _))⟩
    · intro i before
      refine ⟨executes.steps i (by omega), passesAll i (by omega), ?_⟩
      have counted := executes.counter_eq (n := i + 1) (by omega) fun j earlier =>
        passesAll j (by omega)
      have nested := own.nested (x.ahead + (i + 1) + 1) (by omega)
      omega
    · have counted := executes.counter_eq (n := m + 1) (Nat.le_refl _) passesAll
      omega
  · rw [atOnce] at back
    have ends : x.Ends trace (x.ahead + (0 + 1)) := by
      rw [Stepping.Ends, Stepping.seenBefore, if_pos rfl]
      exact .inl back
    refine ⟨1, by omega, .halted ?_ (executes.steps 0 (by omega))
      ((executes.halts_iff (by omega)).mpr ends)⟩
    intro i before
    omega

end Executes

/-- `stepping_finish` returns right after the return of the frame if and only if that can be
found. -/
theorem steppingFinish_finishes_iff (found : steppingFrame k g w x.tid = some x)
    (executes : Executes k x trace r) (own : trace.OwnReturn r) :
    (∃ n, x.ahead + n = r + 1 ∧ Finishes k g w x n) ↔ x.Findable trace r := by
  constructor
  · rintro ⟨n, whole, finishes⟩
    have at' := (finishes_iff found fun i before => executes.steps i (by omega)).mp finishes
    exact executes.findable_of_finishesAt own whole at'
  · intro findable
    obtain ⟨n, whole, at'⟩ := executes.finishesAt_of_findable own findable
    exact ⟨n, whole, at'.finishes found⟩

end Traced

/-! ### A short program -/

/-- The thread returns, executes one more instruction and returns again. -/
def twoReturns : Nat → Nat
  | 0 => 0x1000
  | 1 => 0x2000
  | 2 => 0x2001
  | n + 3 => 0x3000 + n

def returnsAt (addr : Nat) : Bool := addr = 0x1000 || addr = 0x2001

/-- The memory of the program: `ret` at two addresses and `nop` elsewhere -/
def twoReturnsMemory : Memory := fun addr => if returnsAt addr then 0xC3#8 else 0x90#8

/-- The thread, from one of its instructions on -/
def fromInstruction (i : Nat) : Stepping Nat where
  tid := 1
  file := 0
  start :=
    ({ GlobalState.empty with
      tHead := [⟨1, 0, 0⟩]
      files := fun _ => Function.update (fun _ => 0) .rip (twoReturns i) },
      ⟨twoReturnsMemory, i, []⟩)

def traceFrom (i : Nat) : Trace where
  addr n := twoReturns (i + n)
  transfer n := if returnsAt (twoReturns (i + n)) then .ret else .other

theorem twoReturnsMemory_window (addr : Nat) :
    isSwBreakpoint (peekWord twoReturnsMemory addr) = false ∧
      isCallInstruction (peekWord twoReturnsMemory addr) = false ∧
      isRetInstruction (peekWord twoReturnsMemory addr) = returnsAt addr := by
  have first : byteOf (peekWord twoReturnsMemory addr) 0 =
      if returnsAt addr then 0xC3#8 else 0x90#8 :=
    byteOf_peekWord twoReturnsMemory addr (by decide)
  rw [isSwBreakpoint, isCallInstruction, isRetInstruction, first]
  cases returnsAt addr <;> exact ⟨rfl, rfl, rfl⟩

theorem fromInstruction_executes (i r : Nat) :
    Executes (pacing twoReturns) (fromInstruction i) (traceFrom i) r := by
  have ip (n : Nat) : (fromInstruction i).ip (pacing twoReturns) .steppingFinish n =
      twoReturns (i + n) := Stepping.ip_pacing rfl
  have window (n : Nat) : (fromInstruction i).window (pacing twoReturns) n =
      peekWord twoReturnsMemory (twoReturns (i + n)) := by
    rw [Stepping.window, ip, World.peekdata, Stepping.mem_pacing]
    rfl
  have ahead : (fromInstruction i).ahead = 0 := rfl
  have unarmed : ¬ (fromInstruction i).Armed := List.not_mem_nil
  have notCall (n : Nat) : (traceFrom i).transfer n ≠ .call := by
    unfold traceFrom
    dsimp only
    split <;> decide
  refine ⟨fun _ _ => rfl, ip 0, fun n _ => ?_, fun n _ => ?_, fun n _ _ => ?_, fun n _ _ => ?_⟩ <;>
    rw [ahead, Nat.zero_add]
  · exact ip (n + 1)
  · rw [window, (twoReturnsMemory_window _).1]
    exact iff_of_false Bool.false_ne_true fun trapped => unarmed trapped.1
  · rw [window, (twoReturnsMemory_window _).2.1]
    exact iff_of_false Bool.false_ne_true (notCall _)
  · rw [window, (twoReturnsMemory_window _).2.2]
    simp [traceFrom]

/-- The second return, begun at the instruction before it -/
theorem steppingFinish_finishes_second :
    (∃ n, (fromInstruction 1).ahead + n = 1 + 1 ∧ Finishes (pacing twoReturns)
      (fromInstruction 1).start.1 (fromInstruction 1).start.2 (fromInstruction 1) n) ↔
      (fromInstruction 1).Findable (traceFrom 1) 1 := by
  have found : steppingFrame (pacing twoReturns) (fromInstruction 1).start.1
      (fromInstruction 1).start.2 (fromInstruction 1).tid = some (fromInstruction 1) := rfl
  have own : (traceFrom 1).OwnReturn 1 := by
    refine ⟨fun i upTo => ?_, rfl, rfl⟩
    rcases Nat.le_one_iff_eq_zero_or_eq_one.mp upTo with rfl | rfl
    · exact Int.le_refl 0
    · exact Int.le_refl 0
  exact steppingFinish_finishes_iff found (fromInstruction_executes 1 1) own

/-- A thread that is at the return of its frame is led on to the return of the next one. -/
theorem steppingFinish_misses_return :
    Executes (pacing twoReturns) (fromInstruction 0) (traceFrom 0) 0 ∧
      (traceFrom 0).OwnReturn 0 ∧
      (¬ ∃ n, (fromInstruction 0).ahead + n = 0 + 1 ∧ Finishes (pacing twoReturns)
        (fromInstruction 0).start.1 (fromInstruction 0).start.2 (fromInstruction 0) n) ∧
      (∃ s, steppingFinish (pacing twoReturns) 2 (fromInstruction 0).start.1
        (fromInstruction 0).start.2 1 = (some 0, s) ∧
        instructionPointer (s.1.files 0) = 0x3000 ∧ (traceFrom 0).addr (0 + 1) = 0x2000) := by
  have executes := fromInstruction_executes 0 0
  have own : (traceFrom 0).OwnReturn 0 := by
    refine ⟨fun i upTo => ?_, rfl, rfl⟩
    rw [Nat.le_zero.mp upTo]
    exact Int.le_refl 0
  refine ⟨executes, own, ?_, ⟨_, rfl, rfl, rfl⟩⟩
  rintro ⟨n, whole, finishes⟩
  have found : steppingFrame (pacing twoReturns) (fromInstruction 0).start.1
      (fromInstruction 0).start.2 (fromInstruction 0).tid = some (fromInstruction 0) := rfl
  have at' := (finishes_iff found fun _ _ => rfl).mp finishes
  rcases executes.findable_of_finishesAt own whole at' with ⟨further, -⟩ | ⟨-, back⟩
  · exact absurd further (by decide)
  · exact absurd back (by decide)

end Libdebug.Cffi
