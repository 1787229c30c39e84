import Mathlib.Data.Nat.Find
import Mathlib.Order.Monotone.Basic
import Mathlib.Tactic.Common

/-!
Sequences observed with repetitions. `changes x n` counts the first `n` steps of a sequence
that change its value. A sequence that changes finitely often settles
(`settles_of_changes_lt`), and where repetitions are inserted into a sequence whose
consecutive values differ, the count is the position in the latter (`Stutters.changes_eq`).
-/

namespace Libdebug.Foundation

variable {α : Type}

section Changes

variable [DecidableEq α] (x : Nat → α)

def changes : Nat → Nat
  | 0 => 0
  | n + 1 => if x (n + 1) = x n then changes n else changes n + 1

variable {x} {n bound : Nat}

theorem changes_succ_of_eq (same : x (n + 1) = x n) : changes x (n + 1) = changes x n :=
  if_pos same

theorem changes_succ_of_ne (differ : x (n + 1) ≠ x n) : changes x (n + 1) = changes x n + 1 :=
  if_neg differ

theorem changes_monotone : Monotone (changes x) := by
  apply monotone_nat_of_le_succ
  intro n
  by_cases same : x (n + 1) = x n
  · exact (changes_succ_of_eq same).ge
  · rw [changes_succ_of_ne same]
    exact Nat.le_succ _

/-- The value stays the same as long as the count does. -/
theorem eq_of_changes_eq {m : Nat} (later : n ≤ m) (same : changes x m = changes x n) :
    x m = x n := by
  induction m, later using Nat.le_induction with
  | base => rfl
  | succ m later ih =>
      have lower : changes x n ≤ changes x m := changes_monotone later
      have upper : changes x m ≤ changes x (m + 1) := changes_monotone (Nat.le_succ m)
      by_cases here : x (m + 1) = x m
      · exact here.trans (ih (by omega))
      · have counted := changes_succ_of_ne here
        omega

/-- While the value stays the same, so does the count. -/
theorem changes_eq_of_eq {m : Nat} (later : n ≤ m) (same : ∀ i, n ≤ i → x i = x n) :
    changes x m = changes x n := by
  induction m, later using Nat.le_induction with
  | base => rfl
  | succ m later ih =>
      have here : x (m + 1) = x m := (same (m + 1) (by omega)).trans (same m later).symm
      exact (changes_succ_of_eq here).trans ih

/-- A count that is bounded reaches its greatest value, and the sequence its last one. -/
theorem settles_of_changes_lt (bounded : ∀ n, changes x n < bound) :
    ∃ n, ∀ m, n ≤ m → x m = x n := by
  have greatest : ∃ n, ∀ m, changes x m ≤ changes x n := by
    induction bound with
    | zero => exact absurd (bounded 0) (Nat.not_lt_zero _)
    | succ bound ih =>
        by_cases reached : ∃ n, changes x n = bound
        · obtain ⟨n, last⟩ := reached
          exact ⟨n, fun m => last ▸ Nat.le_of_lt_succ (bounded m)⟩
        · apply ih
          intro n
          have below := bounded n
          have missed : changes x n ≠ bound := fun last => reached ⟨n, last⟩
          omega
  obtain ⟨n, last⟩ := greatest
  refine ⟨n, fun m later => eq_of_changes_eq later ?_⟩
  exact Nat.le_antisymm (last m) (changes_monotone later)

end Changes

/-! ### Repetitions -/

/-- `q` is `p` with repetitions inserted: `position n` is where in `p` the value `q n` is. -/
structure Stutters (p q : Nat → α) (position : Nat → Nat) : Prop where
  start : position 0 = 0
  advances : ∀ n, position (n + 1) = position n ∨ position (n + 1) = position n + 1
  same : ∀ n, q n = p (position n)

namespace Stutters

variable {p q : Nat → α} {position : Nat → Nat}

theorem zero (stutters : Stutters p q position) : q 0 = p 0 := by
  rw [stutters.same, stutters.start]

/-- The count of changes is the position. -/
theorem changes_eq [DecidableEq α] (stutters : Stutters p q position)
    (differ : ∀ i, p (i + 1) ≠ p i) (n : Nat) : changes q n = position n := by
  induction n with
  | zero => exact stutters.start.symm
  | succ n ih =>
      rcases stutters.advances n with stays | moves
      · have same : q (n + 1) = q n := by rw [stutters.same, stutters.same, stays]
        rw [changes_succ_of_eq same, ih, stays]
      · have different : q (n + 1) ≠ q n := by
          rw [stutters.same, stutters.same, moves]
          exact differ _
        rw [changes_succ_of_ne different, ih, moves]

/-- Every position up to one that is reached is reached before it. -/
theorem reaches (stutters : Stutters p q position) {n i : Nat} (upTo : i ≤ position n) :
    ∃ m, m ≤ n ∧ position m = i := by
  induction n with
  | zero =>
      rw [stutters.start] at upTo
      exact ⟨0, Nat.le_refl 0, by rw [stutters.start]; omega⟩
  | succ n ih =>
      rcases stutters.advances n with stays | moves
      · obtain ⟨m, earlier, there⟩ := ih (stays ▸ upTo)
        exact ⟨m, Nat.le_succ_of_le earlier, there⟩
      · by_cases last : i = position (n + 1)
        · exact ⟨n + 1, Nat.le_refl _, last.symm⟩
        · obtain ⟨m, earlier, there⟩ := ih (by omega)
          exact ⟨m, Nat.le_succ_of_le earlier, there⟩

end Stutters

end Libdebug.Foundation
