/-!
Runs of a state machine under a condition on its steps.

A machine gives the state each event leads to, or nothing when the event cannot
happen there. `run` follows a list of events, and `Meets` says that every step of
the list meets a condition on the event and the state before it. `run_invariant`
is the induction rule: what one step meeting the condition preserves holds in
every state that such a run reaches.
-/

namespace Libdebug.Foundation

structure Machine (State Event : Type) where
  step : State → Event → Option State

namespace Machine

variable {State Event : Type} (M : Machine State Event)

/-- The state a list of events leads to. -/
def run : State → List Event → Option State
  | state, [] => some state
  | state, event :: rest => (M.step state event).bind (run · rest)

/-- Every step of the run meets the condition, in the state before it. -/
def Meets (condition : State → Event → Prop) : State → List Event → Prop
  | _, [] => True
  | state, event :: rest =>
      condition state event ∧
        match M.step state event with
        | none => True
        | some next => Meets condition next rest

instance Meets.decidable (condition : State → Event → Prop) [DecidableRel condition] :
    ∀ state events, Decidable (M.Meets condition state events)
  | _, [] => .isTrue trivial
  | state, event :: rest =>
      have : Decidable (match M.step state event with
          | none => True
          | some next => M.Meets condition next rest) :=
        match M.step state event with
        | none => .isTrue trivial
        | some next => decidable condition next rest
      inferInstanceAs (Decidable (_ ∧ _))

variable {M} {condition : State → Event → Prop} {state next final : State} {event : Event}
  {events rest : List Event}

theorem meets_always : M.Meets (fun _ _ => True) state events := by
  induction events generalizing state with
  | nil => trivial
  | cons event rest ih =>
      refine ⟨trivial, ?_⟩
      split
      · trivial
      · exact ih

theorem meets_cons : M.Meets condition state (event :: rest) ↔
    condition state event ∧
      ∀ next, M.step state event = some next → M.Meets condition next rest := by
  cases stepped : M.step state event <;> simp [Meets, stepped]

/-- A property of the state that a run reaches, found by following it. -/
theorem exists_of_run {p : State → Prop} [DecidablePred p]
    (found : (M.run state events).any (fun s => decide (p s)) = true) :
    ∃ s, M.run state events = some s ∧ p s := by
  obtain ⟨s, reached, holds⟩ := (Option.any_eq_true _ _).mp found
  exact ⟨s, reached, of_decide_eq_true holds⟩

theorem run_cons (stepped : M.step state event = some next) :
    M.run state (event :: rest) = M.run next rest := by
  simp [run, stepped]

theorem run_append (first second : List Event) :
    M.run state (first ++ second) = (M.run state first).bind (M.run · second) := by
  induction first generalizing state with
  | nil => rfl
  | cons event rest ih =>
      cases stepped : M.step state event with
      | none => simp [run, stepped]
      | some next => simpa [run, stepped] using ih

theorem meets_append (first second : List Event) :
    M.Meets condition state (first ++ second) ↔
      M.Meets condition state first ∧
        ∀ middle, M.run state first = some middle → M.Meets condition middle second := by
  induction first generalizing state with
  | nil => simp [Meets, run]
  | cons event rest ih =>
      cases stepped : M.step state event with
      | none => simp [meets_cons, run, stepped]
      | some next => simp [meets_cons, run, stepped, ih, and_assoc]

/-- The condition holds at the step that follows a run meeting it. -/
theorem Meets.last (met : M.Meets condition state (events ++ [event]))
    (reached : M.run state events = some next) : condition next event :=
  (meets_cons.mp (((meets_append events [event]).mp met).2 next reached)).1

/-- Induction over a run: an invariant that every step meeting the condition
preserves holds in the state the run reaches. -/
theorem run_invariant {motive : State → Prop}
    (preserved : ∀ state event next, motive state → condition state event →
      M.step state event = some next → motive next)
    (initial : motive state) (met : M.Meets condition state events)
    (reached : M.run state events = some final) : motive final := by
  induction events generalizing state with
  | nil =>
      cases reached
      exact initial
  | cons event rest ih =>
      cases stepped : M.step state event with
      | none => simp [run, stepped] at reached
      | some next =>
          rw [run_cons stepped] at reached
          obtain ⟨here, later⟩ := meets_cons.mp met
          exact ih (preserved _ _ _ initial here stepped) (later next stepped) reached

/-- The property holds in every state of the run. -/
def Throughout (M : Machine State Event) (good : State → Prop) (state : State)
    (events : List Event) : Prop :=
  ∀ earlier later reached, events = earlier ++ later → M.run state earlier = some reached →
    good reached

theorem throughout_nil {good : State → Prop} : M.Throughout good state [] ↔ good state := by
  constructor
  · intro always
    exact always [] [] state rfl rfl
  · rintro here earlier later reached empty there
    obtain ⟨rfl, -⟩ := List.append_eq_nil_iff.mp empty.symm
    cases there
    exact here

theorem throughout_cons {good : State → Prop} (stepped : M.step state event = some next) :
    M.Throughout good state (event :: rest) ↔ good state ∧ M.Throughout good next rest := by
  constructor
  · intro always
    refine ⟨always [] _ state rfl rfl, ?_⟩
    rintro earlier later reached rfl there
    exact always (event :: earlier) later reached rfl ((run_cons stepped).trans there)
  · rintro ⟨here, later⟩ earlier after reached whole there
    cases earlier with
    | nil =>
        cases there
        exact here
    | cons first earlier =>
        cases whole
        rw [run_cons stepped] at there
        exact later earlier after reached rfl there

/-- A property holds throughout a run if and only if every step meets the condition under
which it is kept. -/
theorem throughout_iff {good motive : State → Prop}
    (kept : ∀ state event next, motive state → M.step state event = some next →
      (good next ↔ condition state event))
    (preserved : ∀ state event next, motive state → condition state event →
      M.step state event = some next → motive next)
    (initial : motive state) (start : good state) (reached : M.run state events = some final) :
    M.Throughout good state events ↔ M.Meets condition state events := by
  induction events generalizing state with
  | nil => exact iff_of_true (throughout_nil.mpr start) trivial
  | cons event rest ih =>
      cases stepped : M.step state event with
      | none => simp [run, stepped] at reached
      | some next =>
          have here := kept _ _ _ initial stepped
          rw [run_cons stepped] at reached
          rw [throughout_cons stepped, and_iff_right start, meets_cons]
          constructor
          · intro always
            have nextGood : good next := always [] rest next rfl rfl
            refine ⟨here.mp nextGood, ?_⟩
            intro other same
            cases stepped.symm.trans same
            have nextInitial := preserved _ _ _ initial (here.mp nextGood) stepped
            exact (ih nextInitial nextGood reached).mp always
          · rintro ⟨met, later⟩
            exact (ih (preserved _ _ _ initial met stepped) (here.mpr met) reached).mpr
              (later next stepped)

/-- A condition on the events only. -/
theorem meets_forall (condition : Event → Prop) (reached : M.run state events = some final) :
    M.Meets (fun _ => condition) state events ↔ ∀ event ∈ events, condition event := by
  induction events generalizing state with
  | nil => simp [Meets]
  | cons event rest ih =>
      cases stepped : M.step state event with
      | none => simp [run, stepped] at reached
      | some next =>
          rw [run_cons stepped] at reached
          rw [List.forall_mem_cons, meets_cons, ← ih reached]
          constructor
          · rintro ⟨here, later⟩
            exact ⟨here, later next stepped⟩
          · rintro ⟨here, later⟩
            refine ⟨here, fun other same => ?_⟩
            cases stepped.symm.trans same
            exact later

/-- Two conditions that agree along a run, as long as the first is met, are met by the
same runs. -/
theorem meets_iff {motive : State → Prop} {other : State → Event → Prop}
    (agree : ∀ state event next, motive state → M.step state event = some next →
      (condition state event ↔ other state event))
    (preserved : ∀ state event next, motive state → condition state event →
      M.step state event = some next → motive next)
    (initial : motive state) (reached : M.run state events = some final) :
    M.Meets condition state events ↔ M.Meets other state events := by
  induction events generalizing state with
  | nil => exact Iff.rfl
  | cons event rest ih =>
      cases stepped : M.step state event with
      | none => simp [run, stepped] at reached
      | some next =>
          rw [run_cons stepped] at reached
          simp only [Meets, stepped, agree _ _ _ initial stepped]
          refine and_congr_right fun here => ?_
          have met := (agree _ _ _ initial stepped).mpr here
          exact ih (preserved _ _ _ initial met stepped) reached

/-- Two conditions that agree in every state that the first one lets a run reach are met by the
same runs. -/
theorem meets_congr {motive : State → Prop} {other : State → Event → Prop}
    (agree : ∀ state event, motive state → (condition state event ↔ other state event))
    (preserved : ∀ state event next, motive state → condition state event →
      M.step state event = some next → motive next)
    (initial : motive state) : M.Meets condition state events ↔ M.Meets other state events := by
  induction events generalizing state with
  | nil => exact Iff.rfl
  | cons event rest ih =>
      rw [meets_cons, meets_cons, ← agree _ _ initial]
      refine and_congr_right fun here => forall₂_congr fun next stepped => ?_
      exact ih (preserved _ _ _ initial here stepped)

/-- A run that meets a condition meets another that follows from it in the states reached. -/
theorem Meets.imp {motive : State → Prop} {other : State → Event → Prop}
    (implies : ∀ state event, motive state → condition state event → other state event)
    (preserved : ∀ state event next, motive state → condition state event →
      M.step state event = some next → motive next)
    (initial : motive state) (met : M.Meets condition state events) :
    M.Meets other state events := by
  induction events generalizing state with
  | nil => trivial
  | cons event rest ih =>
      obtain ⟨here, later⟩ := meets_cons.mp met
      refine meets_cons.mpr ⟨implies _ _ initial here, ?_⟩
      intro next stepped
      exact ih (preserved _ _ _ initial here stepped) (later next stepped)

/-! ### Two machines beside each other -/

/-- A function from the states of one machine to those of another that follows it step by
step carries conditions over. -/
theorem meets_map {Other : Type} {N : Machine Other Event} (f : State → Other) (state : State)
    (follows : ∀ state event, N.step (f state) event = (M.step state event).map f)
    (condition : Other → Event → Prop) :
    N.Meets condition (f state) events ↔
      M.Meets (fun s event => condition (f s) event) state events := by
  induction events generalizing state with
  | nil => exact Iff.rfl
  | cons event rest ih =>
      simp only [Meets, follows]
      cases stepped : M.step state event with
      | none => simp
      | some next => simp [ih]

/-- A run of a machine that another one follows step by step along a function is a run of the
other one. -/
theorem run_map {Other : Type} {N : Machine Other Event} (f : State → Other)
    {motive : State → Prop}
    (follows : ∀ state event next, motive state → M.step state event = some next →
      motive next ∧ N.step (f state) event = some (f next))
    (initial : motive state) (reached : M.run state events = some final) :
    N.run (f state) events = some (f final) := by
  induction events generalizing state with
  | nil =>
      cases reached
      rfl
  | cons event rest ih =>
      cases stepped : M.step state event with
      | none => simp [run, stepped] at reached
      | some next =>
          rw [run_cons stepped] at reached
          obtain ⟨later, step⟩ := follows _ _ _ initial stepped
          rw [run_cons step]
          exact ih later reached

/-- A simulation: where each step of a machine is answered by a run of another, so is each of its
runs. -/
theorem run_simulated {Other Request : Type} {N : Machine Other Request}
    {R : State → Other → Prop}
    (answers : ∀ state event next other, R state other → M.step state event = some next →
      ∃ requests after, N.run other requests = some after ∧ R next after)
    (other : Other) (related : R state other) (reached : M.run state events = some final) :
    ∃ requests after, N.run other requests = some after ∧ R final after := by
  induction events generalizing state other with
  | nil =>
      cases reached
      exact ⟨[], other, rfl, related⟩
  | cons event rest ih =>
      cases stepped : M.step state event with
      | none => simp [run, stepped] at reached
      | some next =>
          rw [run_cons stepped] at reached
          obtain ⟨first, middle, moved, still⟩ := answers _ _ _ _ related stepped
          obtain ⟨later, after, ended, related⟩ := ih middle still reached
          refine ⟨first ++ later, after, ?_, related⟩
          rw [run_append, moved]
          exact ended

/-- Where each step that meets the condition is followed by another machine at the same event, so is
each run that meets it. -/
theorem run_followed {Other : Type} {N : Machine Other Event} {R : State → Other → Prop}
    (follows : ∀ state event next other, R state other → condition state event →
      M.step state event = some next → ∃ after, N.step other event = some after ∧ R next after)
    {other : Other} (related : R state other) (met : M.Meets condition state events)
    (reached : M.run state events = some final) :
    ∃ after, N.run other events = some after ∧ R final after := by
  induction events generalizing state other with
  | nil =>
      cases reached
      exact ⟨other, rfl, related⟩
  | cons event rest ih =>
      cases stepped : M.step state event with
      | none => simp [run, stepped] at reached
      | some next =>
          rw [run_cons stepped] at reached
          obtain ⟨here, later⟩ := meets_cons.mp met
          obtain ⟨middle, moved, still⟩ := follows _ _ _ _ related here stepped
          obtain ⟨after, ended, holds⟩ := ih still (later next stepped) reached
          exact ⟨after, (run_cons moved).trans ended, holds⟩

/-- A machine beside a second run of it that the events not kept are erased from. -/
def withErased (M : Machine State Event) (kept : Event → Bool) :
    Machine (State × State) Event where
  step s event :=
    (M.step s.1 event).bind fun next =>
      if kept event then (M.step s.2 event).map (next, ·) else some (next, s.2)

theorem step_withErased (kept : Event → Bool) (s : State × State) (event : Event) :
    (M.withErased kept).step s event =
      (M.step s.1 event).bind fun next =>
        if kept event then (M.step s.2 event).map (next, ·) else some (next, s.2) := rfl

theorem run_withErased (kept : Event → Bool) (one two : State) :
    (M.withErased kept).run (one, two) events =
      (M.run one events).bind fun final =>
        (M.run two (events.filter kept)).map (final, ·) := by
  induction events generalizing one two with
  | nil => rfl
  | cons event rest ih =>
      cases stepped : M.step one event with
      | none => simp [run, step_withErased, stepped]
      | some next =>
          cases keeps : kept event with
          | false => simp [run, step_withErased, stepped, keeps, ih]
          | true =>
              cases other : M.step two event with
              | none => simp [run, step_withErased, stepped, keeps, other]
              | some nextOther => simp [run, step_withErased, stepped, keeps, other, ih]

end Machine

end Libdebug.Foundation
