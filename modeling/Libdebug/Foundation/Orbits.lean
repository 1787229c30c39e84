import Mathlib.Data.Fintype.EquivFin
import Mathlib.Data.Set.Finite.Basic
import Mathlib.Logic.Relation
import Mathlib.Order.WellFounded

/-!
Following links, of which each element has one at most. Where there are finitely many targets,
the links from an element on end unless they run into a cycle.
-/

namespace Libdebug.Foundation

open Relation

variable {α : Type*} {R : α → α → Prop} {x y a : α}

/-- No link leads on. -/
def Terminal (R : α → α → Prop) (y : α) : Prop := ∀ z, ¬ R y z

/-- The links lead to an element from which no link leads on. -/
def RunsOut (R : α → α → Prop) (x : α) : Prop := ∃ y, ReflTransGen R x y ∧ Terminal R y

/-- No element that the links lead to leads back to itself. -/
def AvoidsCycles (R : α → α → Prop) (x : α) : Prop :=
  ∀ a, ReflTransGen R x a → ¬ TransGen R a a

theorem Terminal.runsOut (terminal : Terminal R x) : RunsOut R x := ⟨x, .refl, terminal⟩

theorem RunsOut.head (link : R x y) (ends : RunsOut R y) : RunsOut R x := by
  obtain ⟨z, path, terminal⟩ := ends
  exact ⟨z, .head link path, terminal⟩

theorem Terminal.eq_of_path (terminal : Terminal R y) (path : ReflTransGen R y a) : a = y := by
  rcases ReflTransGen.cases_head path with same | ⟨z, link, _⟩
  · exact same.symm
  · exact absurd link (terminal z)

/-- A link that the path to a terminal element begins with closes no cycle. -/
theorem Terminal.not_cycle (unique : Relator.RightUnique R) (terminal : Terminal R y)
    (path : ReflTransGen R a y) : ¬ TransGen R a a := by
  induction path using ReflTransGen.head_induction_on with
  | refl =>
      intro cycle
      obtain ⟨z, link, _⟩ := TransGen.head'_iff.mp cycle
      exact terminal z link
  | head link _ ih =>
      intro cycle
      obtain ⟨z, other, back⟩ := TransGen.head'_iff.mp cycle
      obtain rfl := unique link other
      exact ih (TransGen.tail' back link)

theorem RunsOut.avoidsCycles (unique : Relator.RightUnique R) (ends : RunsOut R x) :
    AvoidsCycles R x := by
  obtain ⟨y, path, terminal⟩ := ends
  intro a reached
  rcases ReflTransGen.total_of_right_unique unique reached path with onward | back
  · exact terminal.not_cycle unique onward
  · rw [terminal.eq_of_path back]
    exact terminal.not_cycle unique .refl

/-- Without cycles, finitely many targets are used up. -/
theorem AvoidsCycles.runsOut (finite : {b | ∃ a, R a b}.Finite) (acyclic : AvoidsCycles R x) :
    RunsOut R x := by
  have reachable : {b | ReflTransGen R x b}.Finite := by
    refine (finite.insert x).subset ?_
    intro b path
    rcases ReflTransGen.cases_tail path with same | ⟨a, _, link⟩
    · exact .inl same
    · exact .inr ⟨a, link⟩
  have : Finite {b // ReflTransGen R x b} := reachable.to_subtype
  let later (b a : {b // ReflTransGen R x b}) : Prop := TransGen R a.1 b.1
  have transitive : IsTrans _ later := ⟨fun _ _ _ second first => first.trans second⟩
  have irreflexive : Std.Irrefl later := ⟨fun a => acyclic a.1 a.2⟩
  have wellFounded := Finite.wellFounded_of_trans_of_irrefl later
  have all : ∀ a : {b // ReflTransGen R x b}, RunsOut R a.1 := by
    intro a
    induction a using wellFounded.induction with
    | _ a ih =>
        by_cases terminal : Terminal R a.1
        · exact terminal.runsOut
        · obtain ⟨z, some⟩ := not_forall.mp terminal
          have link := not_not.mp some
          exact .head link (ih ⟨z, a.2.tail link⟩ (.single link))
  exact all ⟨x, .refl⟩

theorem runsOut_iff (unique : Relator.RightUnique R) (finite : {b | ∃ a, R a b}.Finite) :
    RunsOut R x ↔ AvoidsCycles R x :=
  ⟨fun ends => ends.avoidsCycles unique, fun acyclic => acyclic.runsOut finite⟩

/-- Links that lead upwards below a bound end. -/
theorem runsOut_of_increasing {R : Nat → Nat → Prop} {x : Nat}
    (finite : {b | ∃ a, R a b}.Finite) (increasing : ∀ a b, R a b → a < b) : RunsOut R x := by
  apply AvoidsCycles.runsOut finite
  intro a _ cycle
  have above : ∀ {b c}, TransGen R b c → b < c := by
    intro b c path
    induction path with
    | single link => exact increasing _ _ link
    | tail _ link ih => exact ih.trans (increasing _ _ link)
  exact Nat.lt_irrefl a (above cycle)

end Libdebug.Foundation
