import Libdebug.Foundation.Effects

/-!
Loops whose turns contribute to a tally independently of each other. What a turn contributes,
and whether it returns at all, is fixed before the loop begins: a turn goes by the part of the
state that is its own, and leaves the parts of the others as they are. So the tally after the
loop is that of all the contributions, and if they commute it does not depend on the order of
the turns.
-/

namespace Libdebug.Foundation

variable {ε σ α β γ : Type}

/-- The turn of `x` goes by its own part of the state, of which `Own x` says that it is as it was
before the loop. -/
structure Independent (f : β → EStateM ε σ PUnit) (tally : σ → α) (add : α → γ → α)
    (contributions : β → List γ) (Own : β → σ → Prop) (Apart : β → β → Prop)
    (Manageable : β → Prop) : Prop where
  returns : ∀ x s, Own x s → Manageable x → ∃ t, (f x).run s = .ok ⟨⟩ t ∧
    tally t = (contributions x).foldl add (tally s) ∧ ∀ y, Apart x y → Own y s → Own y t
  raises : ∀ x s, Own x s → ¬ Manageable x → ∃ e t, (f x).run s = .error e t

namespace Independent

variable {f : β → EStateM ε σ PUnit} {tally : σ → α} {add : α → γ → α}
  {contributions : β → List γ} {Own : β → σ → Prop} {Apart : β → β → Prop}
  {Manageable : β → Prop} {xs ys : List β} {s t : σ}
  (independent : Independent f tally add contributions Own Apart Manageable)

include independent

/-- **The run**: the tally is that of all the contributions. -/
theorem run (apart : xs.Pairwise Apart) (own : ∀ x ∈ xs, Own x s)
    (manageable : ∀ x ∈ xs, Manageable x) :
    ∃ t, (xs.forM f).run s = .ok ⟨⟩ t ∧
      tally t = (xs.flatMap contributions).foldl add (tally s) := by
  induction xs generalizing s with
  | nil => exact ⟨s, rfl, rfl⟩
  | cons x rest ih =>
      obtain ⟨others, apart⟩ := List.pairwise_cons.mp apart
      obtain ⟨here, later⟩ := List.forall_mem_cons.mp own
      obtain ⟨first, manageable⟩ := List.forall_mem_cons.mp manageable
      obtain ⟨r, turned, contributed, kept⟩ := independent.returns x s here first
      have still : ∀ y ∈ rest, Own y r := fun y member => kept y (others y member) (later y member)
      obtain ⟨t, ended, counted⟩ := ih apart still manageable
      refine ⟨t, ?_, ?_⟩
      · change (f x >>= fun _ => rest.forM f).run s = _
        rw [EStateM.run_bind, turned]
        exact ended
      · rw [counted, contributed, List.flatMap_cons, List.foldl_append]

/-- A loop that returns has met no turn that raises. -/
theorem manageable_of_returned (apart : xs.Pairwise Apart) (own : ∀ x ∈ xs, Own x s)
    (returned : (xs.forM f).run s = .ok ⟨⟩ t) : ∀ x ∈ xs, Manageable x := by
  induction xs generalizing s with
  | nil => exact fun _ member => absurd member List.not_mem_nil
  | cons x rest ih =>
      obtain ⟨others, apart⟩ := List.pairwise_cons.mp apart
      obtain ⟨here, later⟩ := List.forall_mem_cons.mp own
      obtain ⟨_, r, turned, ended⟩ := ok_of_bind returned
      by_cases first : Manageable x
      · obtain ⟨r', turned', -, kept⟩ := independent.returns x s here first
        obtain rfl : r = r' := by
          rw [turned] at turned'
          cases turned'
          rfl
        have still : ∀ y ∈ rest, Own y r :=
          fun y member => kept y (others y member) (later y member)
        exact List.forall_mem_cons.mpr ⟨first, ih apart still ended⟩
      · obtain ⟨e, r', raised⟩ := independent.raises x s here first
        rw [turned] at raised
        cases raised

/-- **The order of the turns**: each one returns, with one tally, if and only if every turn can
be managed. -/
theorem orderIndependent_iff (symmetric : ∀ x y, Apart x y → Apart y x)
    (apart : xs.Pairwise Apart) (own : ∀ x ∈ xs, Own x s)
    (commute : ∀ c ∈ xs.flatMap contributions, ∀ d ∈ xs.flatMap contributions, ∀ a,
      add (add a c) d = add (add a d) c) :
    (∀ ys : List β, ys.Perm xs → Returns (ys.forM f)
      (fun _ t => tally t = (xs.flatMap contributions).foldl add (tally s)) s) ↔
        ∀ x ∈ xs, Manageable x := by
  constructor
  · intro returns
    obtain ⟨_, t, returned, -⟩ := returns xs (.refl xs)
    exact independent.manageable_of_returned apart own returned
  · intro manageable ys same
    have apart' : ys.Pairwise Apart := same.symm.pairwise apart fun {x y} => symmetric x y
    obtain ⟨t, returned, counted⟩ := independent.run apart'
      (fun x member => own x (same.subset member))
      (fun x member => manageable x (same.subset member))
    refine ⟨⟨⟩, t, returned, counted.trans ?_⟩
    exact ((same.symm.flatMap_right contributions).foldl_eq' commute (tally s)).symm

end Independent

end Libdebug.Foundation
