import Mathlib.Data.Nat.Find
import Mathlib.Logic.Function.Iterate

/-!
How long a deterministic system runs until it comes to a marked state, and the state it
is in then.

Two systems that move in step until the first of them is at a mark come to their marks
together.
-/

namespace Libdebug.Foundation

variable {σ τ : Type} {step : σ → σ} {marked : σ → Prop} {x y : σ} {n m : Nat}

/-- The state after `n` steps is the first that is marked, the current one included. -/
structure FirstVisit (step : σ → σ) (marked : σ → Prop) (n : Nat) (x : σ) : Prop where
  hit : marked (step^[n] x)
  clear : ∀ i < n, ¬ marked (step^[i] x)

namespace FirstVisit

theorem unique (first : FirstVisit step marked n x) (second : FirstVisit step marked m x) :
    n = m := by
  rcases Nat.lt_trichotomy n m with before | same | after
  · exact absurd first.hit (second.clear n before)
  · exact same
  · exact absurd second.hit (first.clear m after)

theorem zero (here : marked x) : FirstVisit step marked 0 x :=
  ⟨here, fun i before => absurd before (Nat.not_lt_zero i)⟩

/-- A visit that is not made yet is made after one step more. -/
theorem succ (away : ¬ marked x) (visit : FirstVisit step marked n (step x)) :
    FirstVisit step marked (n + 1) x where
  hit := visit.hit
  clear i before := by
    cases i with
    | zero => exact away
    | succ i => exact visit.clear i (Nat.lt_of_succ_lt_succ before)

/-- Two systems that move in step come to their marks together. -/
theorem lockstep {step' : τ → τ} {marked' : τ → Prop} {R : Nat → σ → τ → Prop} {z : τ}
    (follows : ∀ i < n, ∀ x z, x = step^[i] y → R i x z → ¬ marked x →
      ¬ marked' z ∧ R (i + 1) (step x) (step' z))
    (arrives : ∀ x z, R n x z → marked x → marked' z)
    (related : R 0 y z) (visit : FirstVisit step marked n y) :
    FirstVisit step' marked' n z ∧ R n (step^[n] y) (step'^[n] z) := by
  have along : ∀ i ≤ n, R i (step^[i] y) (step'^[i] z) := by
    intro i upTo
    induction i with
    | zero => exact related
    | succ i ih =>
        rw [Function.iterate_succ_apply', Function.iterate_succ_apply']
        exact (follows i upTo _ _ rfl (ih (Nat.le_of_succ_le upTo)) (visit.clear i upTo)).2
  refine ⟨⟨arrives _ _ (along n (Nat.le_refl n)) visit.hit, fun i before => ?_⟩,
    along n (Nat.le_refl n)⟩
  exact (follows i before _ _ rfl (along i (Nat.le_of_lt before)) (visit.clear i before)).1

end FirstVisit

/-- The first marked state from the current one on, if the system ever comes to one. -/
noncomputable def firstVisit (step : σ → σ) (marked : σ → Prop) (x : σ) : Option σ :=
  open Classical in
  if visited : ∃ n, marked (step^[n] x) then some (step^[Nat.find visited] x) else none

theorem firstVisit_eq_some :
    firstVisit step marked x = some y ↔ ∃ n, FirstVisit step marked n x ∧ step^[n] x = y := by
  classical
  unfold firstVisit
  split
  · rename_i visited
    have found : FirstVisit step marked (Nat.find visited) x :=
      ⟨Nat.find_spec visited, fun i before => Nat.find_min visited before⟩
    rw [Option.some_inj]
    constructor
    · rintro rfl
      exact ⟨_, found, rfl⟩
    · rintro ⟨n, visit, rfl⟩
      rw [found.unique visit]
  · rename_i never
    simp only [reduceCtorEq, false_iff, not_exists]
    rintro n ⟨visit, -⟩
    exact never ⟨n, visit.hit⟩

end Libdebug.Foundation
