/-!
Loops that go from state to state until they give a result. `Ends step s r` says that the loop
from `s` does end, and with `r`: nothing is said by it of a loop that goes on for ever, or of
fuel that has run out. `ends_of_next` and `ends_of_done` decide it one step at a time, and
`ends_of_follows` takes it from one loop to another that goes through the same steps.
-/

namespace Libdebug.Foundation.Loop

variable {S R : Type} (step : S → S ⊕ R)

def iterate : Nat → S → Option R
  | 0, _ => none
  | fuel + 1, s =>
      match step s with
      | .inl next => iterate fuel next
      | .inr result => some result

def Ends (s : S) (result : R) : Prop := ∃ fuel, iterate step fuel s = some result

variable {step} {s next : S} {result other : R}

theorem ends_of_next (going : step s = .inl next) : Ends step s result ↔ Ends step next result := by
  constructor
  · rintro ⟨fuel, run⟩
    cases fuel with
    | zero => cases run
    | succ fuel =>
        rw [iterate, going] at run
        exact ⟨fuel, run⟩
  · rintro ⟨fuel, run⟩
    refine ⟨fuel + 1, ?_⟩
    rw [iterate, going]
    exact run

theorem ends_of_done (done : step s = .inr other) : Ends step s result ↔ result = other := by
  constructor
  · rintro ⟨fuel, run⟩
    cases fuel with
    | zero => cases run
    | succ fuel =>
        rw [iterate, done] at run
        exact (Option.some.inj run).symm
  · rintro rfl
    refine ⟨1, ?_⟩
    rw [iterate, done]

/-- A loop that is followed step by step ends with the same result. -/
theorem ends_of_follows {T : Type} {other : T → T ⊕ R} (f : S → T) {motive : S → Prop}
    (follows : ∀ s, motive s → other (f s) = (step s).map f id)
    (kept : ∀ s next, motive s → step s = .inl next → motive next) (holds : motive s) :
    Ends other (f s) result ↔ Ends step s result := by
  refine exists_congr fun fuel => ?_
  induction fuel generalizing s with
  | zero => rfl
  | succ fuel ih =>
      rw [iterate, iterate, follows s holds]
      cases stepped : step s with
      | inl next => exact ih (kept s next holds stepped)
      | inr ended => rfl

end Libdebug.Foundation.Loop
