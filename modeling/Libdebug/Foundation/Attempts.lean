/-!
Loops that try one element of a list after the other, until an attempt returns. Some errors are
caught, and the next element is tried; any other ends the loop.
-/

namespace Libdebug.Foundation

variable {α β ε : Type}

def tryEach (caught : ε → Bool) (attempt : α → Except ε β) (otherwise : Except ε β) :
    List α → Except ε β
  | [] => otherwise
  | x :: rest =>
      match attempt x with
      | .ok b => .ok b
      | .error e => if caught e then tryEach caught attempt otherwise rest else .error e

/-- The attempt raises an error that is caught. -/
def Fails (caught : ε → Bool) (attempt : α → Except ε β) (x : α) : Prop :=
  ∃ e, attempt x = .error e ∧ caught e = true

/-- An element is good, and all before it are passed over. -/
def FirstOf (passed good : α → Prop) (xs : List α) : Prop :=
  ∃ before x after, xs = before ++ x :: after ∧ (∀ y ∈ before, passed y) ∧ good x

variable {caught : ε → Bool} {attempt : α → Except ε β} {otherwise : Except ε β}
  {passed good : α → Prop} {x : α} {xs : List α} {b : β}

/-! ### The first element -/

@[simp] theorem firstOf_nil : ¬ FirstOf passed good [] := by
  rintro ⟨before, x, after, empty, _⟩
  cases before <;> cases empty

theorem firstOf_cons :
    FirstOf passed good (x :: xs) ↔ good x ∨ passed x ∧ FirstOf passed good xs := by
  constructor
  · rintro ⟨before, y, after, whole, skipped, holds⟩
    cases before with
    | nil =>
        cases whole
        exact .inl holds
    | cons z before =>
        cases whole
        obtain ⟨here, later⟩ := List.forall_mem_cons.mp skipped
        exact .inr ⟨here, before, y, after, rfl, later, holds⟩
  · rintro (holds | ⟨here, before, y, after, rfl, skipped, holds⟩)
    · exact ⟨[], x, xs, rfl, by simp, holds⟩
    · exact ⟨x :: before, y, after, rfl, List.forall_mem_cons.mpr ⟨here, skipped⟩, holds⟩

theorem firstOf_congr {passed' good' : α → Prop} (same : ∀ x, passed x ↔ passed' x)
    (equal : ∀ x, good x ↔ good' x) : FirstOf passed good xs ↔ FirstOf passed' good' xs := by
  have first : passed = passed' := funext fun x => propext (same x)
  have second : good = good' := funext fun x => propext (equal x)
  rw [first, second]

theorem firstOf_exists {γ : Type} {of : γ → α → Prop} :
    FirstOf passed (fun x => ∃ c, of c x) xs ↔ ∃ c, FirstOf passed (of c) xs := by
  constructor
  · rintro ⟨before, x, after, whole, skipped, c, holds⟩
    exact ⟨c, before, x, after, whole, skipped, holds⟩
  · rintro ⟨c, before, x, after, whole, skipped, holds⟩
    exact ⟨before, x, after, whole, skipped, c, holds⟩

theorem firstOf_and {p : Prop} :
    FirstOf passed (fun x => p ∧ good x) xs ↔ p ∧ FirstOf passed good xs := by
  constructor
  · rintro ⟨before, x, after, whole, skipped, true, holds⟩
    exact ⟨true, before, x, after, whole, skipped, holds⟩
  · rintro ⟨true, before, x, after, whole, skipped, holds⟩
    exact ⟨before, x, after, whole, skipped, true, holds⟩

/-! ### The loop -/

theorem tryEach_cons_of_ok (returned : attempt x = .ok b) :
    tryEach caught attempt otherwise (x :: xs) = .ok b := by
  simp only [tryEach, returned]

theorem tryEach_cons_of_fails (failed : Fails caught attempt x) :
    tryEach caught attempt otherwise (x :: xs) = tryEach caught attempt otherwise xs := by
  obtain ⟨e, raised, isCaught⟩ := failed
  simp only [tryEach, raised, isCaught, if_true]

/-- A loop returns what the first attempt does that is not passed over, or what follows the loop
if all are. -/
theorem tryEach_eq_ok_iff :
    tryEach caught attempt otherwise xs = .ok b ↔
      FirstOf (Fails caught attempt) (fun x => attempt x = .ok b) xs ∨
        (∀ x ∈ xs, Fails caught attempt x) ∧ otherwise = .ok b := by
  induction xs with
  | nil => simp [tryEach]
  | cons x rest ih =>
      rw [firstOf_cons, List.forall_mem_cons]
      rcases attempted : attempt x with e | c
      · cases isCaught : caught e with
        | true =>
            have failed : Fails caught attempt x := ⟨e, attempted, isCaught⟩
            rw [tryEach_cons_of_fails failed, ih]
            simp [failed]
        | false =>
            have raises : ¬ Fails caught attempt x := by
              rintro ⟨e', raised, isCaught'⟩
              cases attempted.symm.trans raised
              cases isCaught.symm.trans isCaught'
            simp [tryEach, attempted, isCaught, raises]
      · have returns : ¬ Fails caught attempt x := by
          rintro ⟨e', raised, _⟩
          cases attempted.symm.trans raised
        rw [tryEach_cons_of_ok attempted]
        simp [returns]

end Libdebug.Foundation
