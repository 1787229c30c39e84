import Libdebug.Cffi.SingleSteps
import Mathlib.Order.Bounds.Basic

/-!
The loop of `step_until`. It goes on for as long as a round leaves it no exit
(`Stepping.Ongoing`); what it returns is decided by the first round that does.

The steps are counted by the changes of the instruction pointer. A hardware breakpoint, which
stops the thread where it is, is therefore not counted (`stepUntil_stops`), but neither is an
instruction that jumps to itself, and then the bound is never reached (`stepUntil_returns_iff`).
-/

namespace Libdebug.Cffi

open Libdebug.Foundation

namespace Stepping

variable {K : Type} {k : Kernel K} {x : Stepping K} {n : Nat}

section StepUntil

variable (k x) (addr : Nat) (maxSteps : Int)

/-- The loop has steps left. -/
abbrev Remaining (n : Nat) : Prop :=
  maxSteps = -1 ∨ (changes (x.ip k .stepUntil) n : Int) < maxSteps

/-- The round is taken, and the loop goes on after it. -/
def Ongoing (n : Nat) : Prop :=
  x.Remaining k maxSteps n ∧ x.steps k .stepUntil n = true ∧ x.ip k .stepUntil (n + 1) ≠ addr

/-- The loop with a fuel, after so many rounds -/
def loop (fuel n : Nat) : Option Int × GlobalState × World K :=
  stepUntilLoop k x.tid x.file addr maxSteps fuel (changes (x.ip k .stepUntil) n)
    (x.after k .stepUntil n).1 (x.after k .stepUntil n).2

variable {k x addr maxSteps} {fuel : Nat}

theorem loop_ongoing (ongoing : x.Ongoing k addr maxSteps n) :
    x.loop k addr maxSteps (fuel + 1) n = x.loop k addr maxSteps fuel (n + 1) := by
  obtain ⟨remaining, stepped, elsewhere⟩ := ongoing
  obtain ⟨w, requested, afterwards⟩ := after_succ_of_steps stepped
  have reported : x.ip k .stepUntil (n + 1) =
      instructionPointer (((x.after k .stepUntil n).1.getregs k
        (w.waitpid k .stepUntil (.thread x.tid) false).2 x.tid x.file).files x.file) := by
    rw [ip, afterwards]
  rw [reported] at elsewhere
  rw [loop, stepUntilLoop, if_pos remaining, requested]
  simp only [if_neg elsewhere]
  by_cases same : x.ip k .stepUntil (n + 1) = x.ip k .stepUntil n
  · have unchanged := same
    rw [reported, ip] at unchanged
    rw [if_pos unchanged, loop, changes_succ_of_eq same, afterwards]
  · have changed := same
    rw [reported, ip] at changed
    rw [if_neg changed, loop, changes_succ_of_ne same, afterwards]
    push_cast
    rfl

/-- No steps are left. -/
theorem loop_exhausted (exhausted : ¬ x.Remaining k maxSteps n) :
    x.loop k addr maxSteps (fuel + 1) n = (some 0, x.after k .stepUntil n) := by
  rw [loop, stepUntilLoop, if_neg exhausted]

theorem loop_fails (remaining : x.Remaining k maxSteps n)
    (failed : x.steps k .stepUntil n = false) :
    x.loop k addr maxSteps (fuel + 1) n = (some (-1), x.after k .stepUntil n) := by
  rw [loop, stepUntilLoop, if_pos remaining, singlestep_of_not_steps failed]

theorem loop_arrives (remaining : x.Remaining k maxSteps n)
    (stepped : x.steps k .stepUntil n = true) (there : x.ip k .stepUntil (n + 1) = addr) :
    x.loop k addr maxSteps (fuel + 1) n = (some 0, x.after k .stepUntil (n + 1)) := by
  obtain ⟨w, requested, afterwards⟩ := after_succ_of_steps stepped
  rw [ip, afterwards] at there
  rw [loop, stepUntilLoop, if_pos remaining, requested]
  simp only [if_pos there]
  rw [afterwards]

/-- Where rounds leave no exit, the loop takes them one after the other. -/
theorem loop_add (fuel m : Nat)
    (ongoing : ∀ i, n ≤ i → i < n + m → x.Ongoing k addr maxSteps i) :
    x.loop k addr maxSteps (fuel + m) n = x.loop k addr maxSteps fuel (n + m) := by
  induction m generalizing fuel with
  | zero => rfl
  | succ m ih =>
      have last := ongoing (n + m) (by omega) (by omega)
      have earlier := ih (fuel + 1) fun i later before => ongoing i later (by omega)
      calc x.loop k addr maxSteps (fuel + (m + 1)) n
          = x.loop k addr maxSteps (fuel + 1 + m) n := by congr 1; omega
        _ = x.loop k addr maxSteps (fuel + 1) (n + m) := earlier
        _ = x.loop k addr maxSteps fuel (n + (m + 1)) := loop_ongoing last

/-- The loop does not end while its rounds leave no exit. -/
theorem loop_stepping (ongoing : ∀ i, i < fuel → x.Ongoing k addr maxSteps i) :
    (x.loop k addr maxSteps fuel 0).1 = none := by
  have rounds := loop_add (n := 0) 0 fuel fun i _ before =>
    ongoing i (by omega)
  rw [Nat.zero_add] at rounds
  rw [rounds]
  rfl

/-- The first round that leaves an exit ends the loop. -/
theorem loop_ends (ongoing : ∀ i, i < n → x.Ongoing k addr maxSteps i)
    (exit : ¬ x.Ongoing k addr maxSteps n) (enough : n < fuel) :
    (¬ x.Remaining k maxSteps n ∧
      x.loop k addr maxSteps fuel 0 = (some 0, x.after k .stepUntil n)) ∨
    (x.loop k addr maxSteps fuel 0 = (some (-1), x.after k .stepUntil n)) ∨
    (x.Remaining k maxSteps n ∧ x.ip k .stepUntil (n + 1) = addr ∧
      x.loop k addr maxSteps fuel 0 = (some 0, x.after k .stepUntil (n + 1))) := by
  obtain ⟨left, rfl⟩ : ∃ left, fuel = left + 1 + n := ⟨fuel - n - 1, by omega⟩
  have rounds := loop_add (n := 0) (left + 1) n fun i _ before =>
    ongoing i (by omega)
  rw [Nat.zero_add] at rounds
  rw [rounds]
  by_cases remaining : x.Remaining k maxSteps n
  · cases stepped : x.steps k .stepUntil n with
    | false => exact .inr (.inl (loop_fails remaining stepped))
    | true =>
        have there : x.ip k .stepUntil (n + 1) = addr := by
          by_contra elsewhere
          exact exit ⟨remaining, stepped, elsewhere⟩
        exact .inr (.inr ⟨remaining, there, loop_arrives remaining stepped there⟩)
  · exact .inl ⟨remaining, loop_exhausted remaining⟩

/-- The first round that leaves an exit, up to one that does. -/
theorem exists_first_exit (exit : ¬ x.Ongoing k addr maxSteps n) :
    ∃ m, m ≤ n ∧ (∀ i, i < m → x.Ongoing k addr maxSteps i) ∧ ¬ x.Ongoing k addr maxSteps m := by
  classical
  have exits : ∃ m, ¬ x.Ongoing k addr maxSteps m := ⟨n, exit⟩
  refine ⟨Nat.find exits, Nat.find_le exit, ?_, Nat.find_spec exits⟩
  intro i before
  exact not_not.mp (Nat.find_min exits before)

/-- A loop that has ended has done so at the first round that leaves an exit. -/
theorem exit_of_returned (returned : (x.loop k addr maxSteps fuel 0).1 ≠ none) :
    ∃ m, m < fuel ∧ (∀ i, i < m → x.Ongoing k addr maxSteps i) ∧
      ¬ x.Ongoing k addr maxSteps m := by
  have exits : ∃ n, n < fuel ∧ ¬ x.Ongoing k addr maxSteps n := by
    by_contra ongoing
    push Not at ongoing
    exact returned (loop_stepping ongoing)
  obtain ⟨n, inside, exit⟩ := exits
  obtain ⟨m, upTo, earlier, first⟩ := exists_first_exit exit
  exact ⟨m, by omega, earlier, first⟩

theorem loop_returns_iff :
    (∃ fuel, (x.loop k addr maxSteps fuel 0).1 ≠ none) ↔ ∃ n, ¬ x.Ongoing k addr maxSteps n := by
  constructor
  · rintro ⟨fuel, returned⟩
    obtain ⟨m, -, -, exit⟩ := exit_of_returned returned
    exact ⟨m, exit⟩
  · rintro ⟨n, exit⟩
    obtain ⟨m, -, earlier, first⟩ := exists_first_exit exit
    refine ⟨m + 1, ?_⟩
    rcases loop_ends earlier first (Nat.lt_succ_self m) with
      ⟨-, ended⟩ | ended | ⟨-, -, ended⟩ <;>
    · rw [ended]
      exact Option.some_ne_none _

end StepUntil

end Stepping

/-! ### `step_until` -/

variable {K : Type}

/-- What `step_until` steps: the last thread of the list with the id, once the registers have
been flushed. -/
def steppingUntil (k : Kernel K) (g : GlobalState) (w : World K) (tid : Int) :
    Option (Stepping K) :=
  (g.tHead.filter (·.tid = tid)).getLast?.map fun t => ⟨tid, t.regs, (g, flushRegs k g w)⟩

variable {k : Kernel K} {g : GlobalState} {w : World K} {tid : Int} {addr : Nat} {maxSteps : Int}
  {fuel : Nat} {x : Stepping K}

theorem stepUntil_none (absent : steppingUntil k g w tid = none) :
    stepUntil k fuel g w tid addr maxSteps = (some (-1), g, flushRegs k g w) := by
  rw [steppingUntil, Option.map_eq_none_iff] at absent
  rw [stepUntil, absent]

theorem stepUntil_some (found : steppingUntil k g w tid = some x) :
    stepUntil k fuel g w tid addr maxSteps = x.loop k addr maxSteps fuel 0 := by
  obtain ⟨t, there, rfl⟩ := Option.map_eq_some_iff.mp found
  rw [stepUntil, there]
  rfl

/-! ### Termination -/

/-- The thread stays at one instruction for ever: it can be stepped, but neither comes to the
address nor changes its instruction pointer often enough. -/
structure Stepping.StaysForever (k : Kernel K) (x : Stepping K) (addr maxSteps : Nat) : Prop where
  steps : ∀ n, x.steps k .stepUntil n = true
  elsewhere : ∀ n, x.ip k .stepUntil (n + 1) ≠ addr
  stays : ∃ n, changes (x.ip k .stepUntil) n < maxSteps ∧
    ∀ m, n ≤ m → x.ip k .stepUntil m = x.ip k .stepUntil n

theorem Stepping.staysForever_iff {maxSteps : Nat} :
    x.StaysForever k addr maxSteps ↔ ∀ n, x.Ongoing k addr maxSteps n := by
  constructor
  · rintro ⟨steps, elsewhere, n, below, same⟩ m
    refine ⟨.inr ?_, steps m, elsewhere m⟩
    have upTo : changes (x.ip k .stepUntil) m ≤ changes (x.ip k .stepUntil) n := by
      rcases Nat.le_total m n with earlier | later
      · exact changes_monotone earlier
      · exact (changes_eq_of_eq later same).le
    omega
  · intro ongoing
    have bounded : ∀ n, changes (x.ip k .stepUntil) n < maxSteps := by
      intro n
      rcases (ongoing n).1 with unbounded | below <;> omega
    obtain ⟨n, same⟩ := settles_of_changes_lt bounded
    exact ⟨fun n => (ongoing n).2.1, fun n => (ongoing n).2.2, n, bounded n, same⟩

/-- `step_until` with a bound returns unless the thread stays at one instruction for ever. -/
theorem stepUntil_returns_iff (k : Kernel K) (g : GlobalState) (w : World K) (tid : Int)
    (addr maxSteps : Nat) :
    (∃ fuel, (stepUntil k fuel g w tid addr maxSteps).1 ≠ none) ↔
      ∀ x, steppingUntil k g w tid = some x → ¬ x.StaysForever k addr maxSteps := by
  cases found : steppingUntil k g w tid with
  | none =>
      have returns : (stepUntil k 0 g w tid addr maxSteps).1 ≠ none := by
        rw [stepUntil_none found]
        exact Option.some_ne_none _
      refine iff_of_true ⟨0, returns⟩ ?_
      rintro x ⟨⟩
  | some x =>
      simp only [stepUntil_some found, Option.some.injEq, forall_eq']
      rw [Stepping.loop_returns_iff, Stepping.staysForever_iff, not_forall]

/-- One thread, at an instruction -/
def oneThread : GlobalState :=
  { GlobalState.empty with
    tHead := [⟨1, 0, 0⟩]
    files := fun _ => Function.update (fun _ => 0) .rip 0x1000 }

/-- The instruction jumps to itself, and one step is too many. -/
theorem stepUntil_selfJump : ¬ ∃ fuel,
    (stepUntil (pacing fun _ => 0x1000) fuel oneThread (.nops 0) 1 0x2000 1).1 ≠ none := by
  rintro ⟨fuel, returned⟩
  apply returned
  have found : steppingUntil (pacing fun _ => 0x1000) oneThread (.nops 0) 1 =
      some ⟨1, 0, (oneThread, .nops 0)⟩ := rfl
  have here : ∀ n, Stepping.ip (pacing fun _ => 0x1000) .stepUntil
      ⟨1, 0, (oneThread, .nops 0)⟩ n = 0x1000 := fun n => Stepping.ip_pacing rfl
  rw [stepUntil_some found]
  apply Stepping.loop_stepping
  intro i _
  have unchanged := changes_eq_of_eq (Nat.zero_le i) fun j _ => (here j).trans (here 0).symm
  refine ⟨.inr ?_, rfl, ?_⟩
  · rw [unchanged]
    decide
  · rw [here]
    decide

/-! ### Where it stops -/

/-- The first time after the start that a path is at the address, unless the bound comes
first. -/
def StopsAt (path : Nat → Nat) (addr : Nat) (maxSteps : Int) (i : Nat) : Prop :=
  (IsLeast {j | 1 ≤ j ∧ path j = addr} i ∧ (maxSteps = -1 ∨ i ≤ maxSteps)) ∨
    (maxSteps ≠ -1 ∧ i = maxSteps ∧ ∀ j : Nat, 1 ≤ j → j ≤ maxSteps → path j ≠ addr)

namespace Stepping

variable {path position : Nat → Nat} {n : Nat}

/-- Before a round that is reached the path has not come to the address. -/
theorem path_ne_of_ongoing (stutters : Stutters path (x.ip k .stepUntil) position)
    (ongoing : ∀ i, i < n → x.Ongoing k addr maxSteps i) {j : Nat} (started : 1 ≤ j)
    (upTo : j ≤ position n) : path j ≠ addr := by
  obtain ⟨m, before, there⟩ := stutters.reaches upTo
  cases m with
  | zero =>
      rw [stutters.start] at there
      omega
  | succ m =>
      rw [← there, ← stutters.same]
      exact (ongoing m before).2.2

/-- Where the steps are used up, exactly so many have been made. -/
theorem position_of_exhausted (stutters : Stutters path (x.ip k .stepUntil) position)
    (differ : ∀ i, path (i + 1) ≠ path i) (bound : maxSteps = -1 ∨ 0 ≤ maxSteps)
    (ongoing : ∀ i, i < n → x.Ongoing k addr maxSteps i)
    (exhausted : ¬ x.Remaining k maxSteps n) :
    maxSteps ≠ -1 ∧ (position n : Int) = maxSteps := by
  rw [Remaining, stutters.changes_eq differ, not_or] at exhausted
  obtain ⟨bounded, reached⟩ := exhausted
  refine ⟨bounded, ?_⟩
  cases n with
  | zero =>
      rw [stutters.start] at reached ⊢
      omega
  | succ n =>
      have before := (ongoing n (Nat.lt_succ_self n)).1
      rw [Remaining, stutters.changes_eq differ] at before
      rcases stutters.advances n with stays | moves <;> omega

end Stepping

/-- Whatever stops at an unchanged instruction pointer are inserted, `step_until` returns with
the thread at the first address on its path that is the one it was given, or after as many
changes as it was allowed. -/
theorem stepUntil_stops {path position : Nat → Nat} {s : GlobalState × World K}
    (found : steppingUntil k g w tid = some x)
    (stutters : Stutters path (x.ip k .stepUntil) position)
    (differ : ∀ i, path (i + 1) ≠ path i) (elsewhere : addr ≠ path 0)
    (bound : maxSteps = -1 ∨ 0 ≤ maxSteps)
    (returned : stepUntil k fuel g w tid addr maxSteps = (some 0, s)) :
    ∃ n, s = x.after k .stepUntil n ∧
      instructionPointer (s.1.files x.file) = path (position n) ∧
      StopsAt path addr maxSteps (position n) := by
  rw [stepUntil_some found] at returned
  have ended : (x.loop k addr maxSteps fuel 0).1 ≠ none := by
    rw [returned]
    exact Option.some_ne_none _
  obtain ⟨n, inside, ongoing, exit⟩ := Stepping.exit_of_returned ended
  rcases Stepping.loop_ends ongoing exit inside with
    ⟨exhausted, there⟩ | failed | ⟨remaining, arrived, there⟩
  · obtain rfl : s = x.after k .stepUntil n := (Prod.mk.inj (returned.symm.trans there)).2
    obtain ⟨bounded, reached⟩ :=
      Stepping.position_of_exhausted stutters differ bound ongoing exhausted
    refine ⟨n, rfl, stutters.same n, .inr ⟨bounded, reached, ?_⟩⟩
    intro j started upTo
    exact Stepping.path_ne_of_ongoing stutters ongoing started (by omega)
  · have same := (Prod.mk.inj (returned.symm.trans failed)).1
    cases same
  · obtain rfl : s = x.after k .stepUntil (n + 1) := (Prod.mk.inj (returned.symm.trans there)).2
    have atAddr : path (position (n + 1)) = addr := (stutters.same (n + 1)).symm.trans arrived
    have started : 1 ≤ position (n + 1) := by
      by_contra atStart
      have zero : position (n + 1) = 0 := by omega
      rw [zero] at atAddr
      exact elsewhere atAddr.symm
    rw [Stepping.Remaining, stutters.changes_eq differ] at remaining
    refine ⟨n + 1, rfl, stutters.same (n + 1), .inl ⟨⟨⟨started, atAddr⟩, ?_⟩, ?_⟩⟩
    · rintro j ⟨later, there⟩
      by_contra before
      have upTo : j ≤ position n := by
        rcases stutters.advances n with stays | moves <;> omega
      exact Stepping.path_ne_of_ongoing stutters ongoing later upTo there
    · rcases stutters.advances n with stays | moves <;> omega

/-- The path to the third instruction, with the first stop twice -/
theorem stepUntil_stops_after_stutter :
    ∃ n, (stepUntil (pacing fun n => 0x1000 + (n - 1)) 10 oneThread (.nops 0) 1 0x1003 5).2 =
        Stepping.after (pacing fun n => 0x1000 + (n - 1)) .stepUntil
          ⟨1, 0, (oneThread, .nops 0)⟩ n ∧
      instructionPointer ((stepUntil (pacing fun n => 0x1000 + (n - 1)) 10 oneThread (.nops 0)
        1 0x1003 5).2.1.files 0) = 0x1000 + (n - 1) ∧
      StopsAt (fun i => 0x1000 + i) 0x1003 5 (n - 1) := by
  have found : steppingUntil (pacing fun n => 0x1000 + (n - 1)) oneThread (.nops 0) 1 =
      some ⟨1, 0, (oneThread, .nops 0)⟩ := rfl
  have stutters : Stutters (fun i => 0x1000 + i) (Stepping.ip (pacing fun n => 0x1000 + (n - 1))
      .stepUntil ⟨1, 0, (oneThread, .nops 0)⟩) fun n => n - 1 := by
    refine ⟨rfl, fun n => ?_, fun n => ?_⟩
    · cases n with
      | zero => exact .inl rfl
      | succ n => exact .inr rfl
    · rw [Stepping.ip_pacing rfl]
      exact congrArg (fun m => 0x1000 + (m - 1)) (Nat.zero_add n)
  have returned : stepUntil (pacing fun n => 0x1000 + (n - 1)) 10 oneThread (.nops 0) 1 0x1003 5 =
      (some 0,
        (stepUntil (pacing fun n => 0x1000 + (n - 1)) 10 oneThread (.nops 0) 1 0x1003 5).2) :=
    rfl
  exact stepUntil_stops found stutters (fun i => Nat.succ_ne_self (0x1000 + i)) (by decide)
    (.inr (by decide)) returned

end Libdebug.Cffi
