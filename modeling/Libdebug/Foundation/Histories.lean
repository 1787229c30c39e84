import Libdebug.Foundation.Runs

/-!
A history written beside a run: every step appends what it has to note. The machine itself
does not see it.
-/

namespace Libdebug.Foundation

namespace Machine

variable {State Event Note : Type} (M : Machine State Event) (notes : State → Event → List Note)

/-- What the steps of a run note, oldest first. -/
def history : State → List Event → List Note
  | _, [] => []
  | state, event :: rest =>
      match M.step state event with
      | none => []
      | some next => notes state event ++ history next rest

variable {M notes} {state final : State} {events : List Event}

/-- Induction over a run together with its history. -/
theorem history_invariant {motive : State → List Note → Prop}
    (preserved : ∀ state past event next, motive state past → M.step state event = some next →
      motive next (past ++ notes state event))
    (past : List Note) (initial : motive state past) (reached : M.run state events = some final) :
    motive final (past ++ M.history notes state events) := by
  induction events generalizing state past with
  | nil =>
      cases reached
      rwa [history, List.append_nil]
  | cons event rest ih =>
      cases stepped : M.step state event with
      | none => simp [run, stepped] at reached
      | some next =>
          rw [run_cons stepped] at reached
          rw [history, stepped]
          dsimp only
          rw [← List.append_assoc]
          exact ih _ (preserved _ _ _ _ initial stepped) reached

end Machine

end Libdebug.Foundation
