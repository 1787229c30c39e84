import Libdebug.Foundation.Effects

/-!
Programs that remember results, beside pure computations of the same results.

`cached` is `functools.cache`: a result that is remembered is returned, and what a computation
returns is remembered; an error is not. `Yields` says that a program returns or raises what a pure
computation does, and how the state before and after are related; the computation may depend on
the state before. It composes along `bind` where the relation is a preorder that the second
computation respects.
-/

namespace Libdebug.Foundation

variable {ε σ α β κ ν : Type}

/-- A part of the state in which results are remembered by keys -/
structure Slot (σ κ ν : Type) where
  lookup : σ → κ → Option ν
  remember : σ → κ → ν → σ

def cached (slot : Slot σ κ ν) (key : κ) (compute : EStateM ε σ ν) : EStateM ε σ ν := do
  match slot.lookup (← get) key with
  | some value => return value
  | none =>
      let value ← compute
      modify fun s => slot.remember s key value
      return value

/-- The stamp says in which circumstances a result was computed; it is not used. -/
def stamped {γ : Type} (slot : Slot σ κ (γ × ν)) (stamp : γ) (key : κ)
    (compute : EStateM ε σ ν) : EStateM ε σ ν := do
  let found ← cached slot key do return (stamp, ← compute)
  return found.2

/-- The program ends as the computation does, in a state related to the one before. -/
def Yields (R : σ → σ → Prop) (p : EStateM ε σ α) (q : Except ε α) (s : σ) : Prop :=
  match p.run s with
  | .ok a t => q = .ok a ∧ R s t
  | .error e t => q = .error e ∧ R s t

variable {R : σ → σ → Prop} {p : EStateM ε σ α} {q : Except ε α} {s t : σ} {slot : Slot σ κ ν}
  {key : κ}

namespace Yields

theorem of_ok {a : α} (ran : p.run s = .ok a t) (same : q = .ok a) (related : R s t) :
    Yields R p q s := by
  unfold Yields
  rw [ran]
  exact ⟨same, related⟩

theorem of_error {e : ε} (ran : p.run s = .error e t) (same : q = .error e) (related : R s t) :
    Yields R p q s := by
  unfold Yields
  rw [ran]
  exact ⟨same, related⟩

/-- What follows from a program that returns -/
theorem ok {a : α} (yields : Yields R p q s) (ran : p.run s = .ok a t) : q = .ok a ∧ R s t := by
  unfold Yields at yields
  rwa [ran] at yields

theorem error {e : ε} (yields : Yields R p q s) (ran : p.run s = .error e t) :
    q = .error e ∧ R s t := by
  unfold Yields at yields
  rwa [ran] at yields

/-- The second program is compared in every state that the first may return in. -/
theorem bind (trans : ∀ {s t u}, R s t → R t u → R s u) {f : α → EStateM ε σ β}
    {g : α → Except ε β} (first : Yields R p q s)
    (second : ∀ a t, q = .ok a → R s t → Yields R (f a) (g a) t) :
    Yields R (p >>= f) (q >>= g) s := by
  rcases ran : p.run s with ⟨a, t⟩ | ⟨e, t⟩
  · obtain ⟨rfl, related⟩ := first.ok ran
    have later := second a t rfl related
    rcases ranOn : (f a).run t with ⟨b, u⟩ | ⟨e, u⟩
    · obtain ⟨same, relatedOn⟩ := later.ok ranOn
      refine of_ok ?_ same (trans related relatedOn)
      rw [EStateM.run_bind, ran]
      exact ranOn
    · obtain ⟨same, relatedOn⟩ := later.error ranOn
      refine of_error ?_ same (trans related relatedOn)
      rw [EStateM.run_bind, ran]
      exact ranOn
  · obtain ⟨rfl, related⟩ := first.error ran
    refine of_error ?_ rfl related
    rw [EStateM.run_bind, ran]

end Yields

section Reflexive

variable (refl : ∀ s, R s s)
include refl

theorem yields_pure (a : α) : Yields R (pure a : EStateM ε σ α) (.ok a) s :=
  .of_ok rfl rfl (refl s)

theorem yields_throw (e : ε) : Yields R (throw e : EStateM ε σ α) (.error e) s :=
  .of_error rfl rfl (refl s)

theorem yields_ofExcept (q : Except ε α) : Yields R (ofExcept q : EStateM ε σ α) q s := by
  cases q with
  | ok a => exact yields_pure refl a
  | error e => exact yields_throw refl e

end Reflexive

/-! ### Remembered results -/

theorem run_cached_of_some {value : ν} {compute : EStateM ε σ ν}
    (remembered : slot.lookup s key = some value) :
    (cached slot key compute).run s = .ok value s := by
  unfold cached
  rw [EStateM.run_bind, EStateM.run_get]
  simp only [remembered]
  rfl

theorem run_cached_of_ok {value : ν} {compute : EStateM ε σ ν}
    (missing : slot.lookup s key = none) (computed : compute.run s = .ok value t) :
    (cached slot key compute).run s = .ok value (slot.remember t key value) := by
  unfold cached
  rw [EStateM.run_bind, EStateM.run_get]
  simp only [missing]
  rw [EStateM.run_bind, computed]
  rfl

theorem run_cached_of_error {e : ε} {compute : EStateM ε σ ν}
    (missing : slot.lookup s key = none) (failed : compute.run s = .error e t) :
    (cached slot key compute).run s = .error e t := by
  unfold cached
  rw [EStateM.run_bind, EStateM.run_get]
  simp only [missing]
  rw [EStateM.run_bind, failed]

/-- What is remembered is right, and what is computed is remembered: where both are related to
the state before, a remembered program yields what the computation does. -/
theorem yields_cached {compute : EStateM ε σ ν} {q : Except ε ν} (refl : R s s)
    (right : ∀ value, slot.lookup s key = some value → q = .ok value)
    (missing : slot.lookup s key = none → Yields R compute q s)
    (remembers : ∀ value t, slot.lookup s key = none → q = .ok value → R s t →
      R s (slot.remember t key value)) :
    Yields R (cached slot key compute) q s := by
  cases remembered : slot.lookup s key with
  | some value => exact .of_ok (run_cached_of_some remembered) (right value remembered) refl
  | none =>
      have yields := missing remembered
      rcases ran : compute.run s with ⟨value, t⟩ | ⟨e, t⟩
      · obtain ⟨same, related⟩ := yields.ok ran
        exact .of_ok (run_cached_of_ok remembered ran) same
          (remembers value t remembered same related)
      · obtain ⟨same, related⟩ := yields.error ran
        exact .of_error (run_cached_of_error remembered ran) same related

theorem Yields.mono {R' : σ → σ → Prop} (weaker : ∀ t, R s t → R' s t)
    (yields : Yields R p q s) : Yields R' p q s := by
  rcases ran : p.run s with ⟨a, t⟩ | ⟨e, t⟩
  · obtain ⟨same, related⟩ := yields.ok ran
    exact .of_ok ran same (weaker t related)
  · obtain ⟨same, related⟩ := yields.error ran
    exact .of_error ran same (weaker t related)

theorem yields_stamped {γ : Type} {slot : Slot σ κ (γ × ν)} {stamp : γ}
    {compute : EStateM ε σ ν} {q : Except ε ν} (refl : R s s)
    (right : ∀ old value, slot.lookup s key = some (old, value) → q = .ok value)
    (missing : slot.lookup s key = none → Yields R compute q s)
    (remembers : ∀ value t, slot.lookup s key = none → q = .ok value → R s t →
      R s (slot.remember t key (stamp, value))) :
    Yields R (stamped slot stamp key compute) q s := by
  unfold stamped
  cases remembered : slot.lookup s key with
  | some found =>
      apply Yields.of_ok (t := s) (a := found.2) ?_ (right found.1 found.2 remembered) refl
      rw [EStateM.run_bind, run_cached_of_some remembered]
      rfl
  | none =>
      have yields := missing remembered
      rcases ran : compute.run s with ⟨value, t⟩ | ⟨e, t⟩
      · obtain ⟨same, related⟩ := yields.ok ran
        have computed : (do return (stamp, ← compute) : EStateM ε σ (γ × ν)).run s =
            .ok (stamp, value) t := by
          rw [EStateM.run_bind, ran]
          rfl
        apply Yields.of_ok (a := value) ?_ same (remembers value t remembered same related)
        rw [EStateM.run_bind, run_cached_of_ok remembered computed]
        rfl
      · obtain ⟨same, related⟩ := yields.error ran
        have failed : (do return (stamp, ← compute) : EStateM ε σ (γ × ν)).run s =
            .error e t := by
          rw [EStateM.run_bind, ran]
        apply Yields.of_error ?_ same related
        rw [EStateM.run_bind, run_cached_of_error remembered failed]

end Libdebug.Foundation
