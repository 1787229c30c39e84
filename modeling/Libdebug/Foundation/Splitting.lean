import Mathlib.Data.List.DropRight
import Mathlib.Data.List.TakeWhile

/-!
Splitting a list at the first few separators, as `text.split(sep, n)` does, and taking the
blank elements off both its ends, as `text.strip()` does.
-/

namespace Libdebug.Foundation

variable {α : Type*}

section Fields

variable [DecidableEq α]

/-- The parts between separators, of which the first `n` are looked at. -/
def splitAtMost (separator : α) : Nat → List α → List (List α)
  | 0, xs => [xs]
  | n + 1, xs =>
      match xs.dropWhile (· ≠ separator) with
      | [] => [xs]
      | _ :: rest => xs.takeWhile (· ≠ separator) :: splitAtMost separator n rest

variable {separator : α} {field rest : List α} {n : Nat}

/-- A field without a separator ends at the first one. -/
theorem splitAtMost_field (absent : separator ∉ field) :
    splitAtMost separator (n + 1) (field ++ separator :: rest) =
      field :: splitAtMost separator n rest := by
  have other : ∀ x ∈ field, decide (x ≠ separator) = true := by
    intro x member
    exact decide_eq_true fun same => absent (same ▸ member)
  have here : ((separator :: rest).dropWhile fun x => decide (x ≠ separator)) =
      separator :: rest := List.dropWhile_cons_of_neg (by simp)
  have nothing : ((separator :: rest).takeWhile fun x => decide (x ≠ separator)) = [] :=
    List.takeWhile_cons_of_neg (by simp)
  rw [splitAtMost, List.dropWhile_append_of_pos other, here, List.takeWhile_append_of_pos other,
    nothing, List.append_nil]

theorem splitAtMost_of_absent (absent : separator ∉ field) :
    splitAtMost separator n field = [field] := by
  cases n with
  | zero => rfl
  | succ n =>
      have other : ∀ x ∈ field, decide (x ≠ separator) = true := by
        intro x member
        exact decide_eq_true fun same => absent (same ▸ member)
      rw [splitAtMost, List.dropWhile_eq_nil_iff.mpr other]

/-- Fields that are joined by separators come apart, and so does what follows them. -/
theorem splitAtMost_intercalate {fields : List (List α)} (some : fields ≠ [])
    (absent : ∀ field ∈ fields, separator ∉ field) :
    splitAtMost separator (fields.length + n)
        ([separator].intercalate fields ++ separator :: rest) =
      fields ++ splitAtMost separator n rest := by
  induction fields with
  | nil => exact absurd rfl some
  | cons field fields ih =>
      obtain ⟨here, later⟩ := List.forall_mem_cons.mp absent
      have count : (field :: fields).length + n = fields.length + n + 1 := by
        rw [List.length_cons]
        omega
      by_cases last : fields = []
      · subst last
        rw [count, List.intercalate_singleton, splitAtMost_field here, List.length_nil,
          Nat.zero_add, List.singleton_append]
      · have joined : [separator].intercalate (field :: fields) ++ separator :: rest =
            field ++ separator :: ([separator].intercalate fields ++ separator :: rest) := by
          rw [List.intercalate_cons_of_ne_nil last]
          simp only [List.append_assoc, List.cons_append, List.nil_append]
        rw [count, joined, splitAtMost_field here, ih last later, List.cons_append]

end Fields

/-! ### Blank ends -/

/-- The list without the blank elements at both ends -/
def strip (blank : α → Bool) (xs : List α) : List α := (xs.dropWhile blank).rdropWhile blank

variable {blank : α → Bool} {core before after : List α}

/-- What begins and ends with an element that is not blank is what is left. -/
theorem strip_padded (blankBefore : ∀ x ∈ before, blank x = true)
    (blankAfter : ∀ x ∈ after, blank x = true)
    (first : ∀ x ∈ core.head?, blank x = false) (last : ∀ x ∈ core.getLast?, blank x = false) :
    strip blank (before ++ core ++ after) = core := by
  have front : (core ++ after).dropWhile blank = if core = [] then [] else core ++ after := by
    cases core with
    | nil => exact List.dropWhile_eq_nil_iff.mpr blankAfter
    | cons x rest =>
        have here : blank x = false := first x rfl
        exact List.dropWhile_cons_of_neg (by simp [here])
  rw [strip, List.append_assoc, List.dropWhile_append_of_pos blankBefore, front]
  by_cases empty : core = []
  · rw [if_pos empty, empty, List.rdropWhile_nil]
  · have back : core.reverse.dropWhile blank = core.reverse := by
      obtain ⟨x, rest, reversed⟩ := List.exists_cons_of_ne_nil (mt List.reverse_eq_nil_iff.mp empty)
      have here : x ∈ core.getLast? := by rw [← List.head?_reverse, reversed]; rfl
      rw [reversed, List.dropWhile_cons_of_neg (by simp [last x here])]
    have blanks : ∀ x ∈ after.reverse, blank x = true := by
      intro x member
      exact blankAfter x (List.mem_reverse.mp member)
    rw [if_neg empty, List.rdropWhile, List.reverse_append, List.dropWhile_append_of_pos blanks,
      back, List.reverse_reverse]

theorem strip_of_blank {xs : List α} (all : ∀ x ∈ xs, blank x = true) : strip blank xs = [] := by
  rw [strip, List.dropWhile_eq_nil_iff.mpr all, List.rdropWhile_nil]

end Libdebug.Foundation
