import Libdebug.Ptrace.Footprints

/-!
Whether a wait status is lost.

`wait` hands every status that `wait_all_and_update_regs` collects to the status handler,
and nothing else hands over any. The step-over of `prepare_for_run`, `step_until` and
`stepping_finish` wait for the end of a step of theirs and drop whatever is reported
instead. So no status is lost exactly when these three are told nothing but that.
-/

namespace Libdebug.Ptrace

open Libdebug.Foundation Libdebug.Cffi

variable {K : Type} {k : Kernel K} {u : UserCode K}

/-- The statuses that `waitpid` returned in the C layer. -/
def reapedInLib (log : List Event) : List ThreadStatus :=
  collected log ++ reapedAt .prepareForRun log ++ reapedAt .stepUntil log ++
    reapedAt .steppingFinish log

/-- The statuses that were returned to a loop that steps. -/
def reapedInSteps (log : List Event) : List ThreadStatus :=
  reapedAt .prepareForRun log ++ reapedAt .stepUntil log ++ reapedAt .steppingFinish log

/-- Neither the end of a step that the tracer asked for, nor a stop by a signal it sent;
and `waitpid` did report it. -/
def foreign (st : ThreadStatus) : Bool :=
  st.cause ≠ .singleStep && st.cause ≠ .tracerStop && st.cause ≠ .unreported

/-- Every status from outside is handed to the status handler as often as it came. -/
def NoStatusLost (log : List Event) : Prop :=
  ∀ st, foreign st = true → (reapedInLib log).count st ≤ (managed log).count st

/-- The loops that step see their own steps end, and nothing else. -/
def StepsUndisturbed (log : List Event) : Prop := ∀ st ∈ reapedInSteps log, foreign st = false

instance (log : List Event) : Decidable (StepsUndisturbed log) :=
  inferInstanceAs (Decidable (∀ st ∈ reapedInSteps log, foreign st = false))

/-! ### Collected statuses are handed over -/

/-- What has been collected has been handed over, as often. -/
def HandedOver (s : Debugger K) : Prop :=
  ∀ st : ThreadStatus, st.cause ≠ .unreported →
    (managed s.world.log).count st = (collected s.world.log).count st

/-- A method that neither collects nor hands over maintains that. -/
theorem Touches.handedOver {α : Type} {F : Finset Field} {p : Py K α} (touches : Touches F p)
    (apart : .collected ∉ F ∧ .managed ∉ F) : Maintains HandedOver p := by
  intro s holds st reported
  have sameCollected : collected (stateAfter p s).world.log = collected s.world.log :=
    touches s .collected apart.1
  have sameManaged : managed (stateAfter p s).world.log = managed s.world.log :=
    touches s .managed apart.2
  rw [sameCollected, sameManaged]
  exact holds st reported

/-- The list that is returned holds what has been collected since. -/
theorem waitResults_collects {fuel : Nat} {s next : Debugger K} {results : List ThreadStatus}
    (returned : (waitResults k fuel).run s = .ok results next) :
    managed next.world.log = managed s.world.log ∧
      ∀ st : ThreadStatus, st.cause ≠ .unreported →
        (collected next.world.log).count st =
          results.count st + (collected s.world.log).count st := by
  refine ⟨(waitResults_touches fuel).of_ok returned .managed (by decide), fun st reported => ?_⟩
  simp only [waitResults, EStateM.run_bind, EStateM.run_get] at returned
  rcases outcome : waitAllAndUpdateRegs k fuel s.globalState s.world s.processId with
    ⟨_ | _ | list, g, w⟩ <;> rw [outcome] at returned
  · cases returned
  · cases returned
    simpa using congrArg (·.count st) (waitAllAndUpdateRegs_null fuel _ _ _ outcome)
  · cases returned
    exact waitAllAndUpdateRegs_collects k reported fuel _ _ _ outcome

theorem managed_noteManaged (s : Debugger K) (results : List ThreadStatus) :
    managed (s.noteManaged results).world.log = results.reverse ++ managed s.world.log := by
  rw [noteManaged_log, managed, List.filterMap_append, List.filterMap_map]
  simp [managed]

/-- The list is always returned, unless the function never returns. -/
theorem waitResults_raised {fuel : Nat} {s next : Debugger K} {error : Abort}
    (raised : (waitResults k fuel).run s = .error error next) : next = s := by
  simp only [waitResults, EStateM.run_bind, EStateM.run_get] at raised
  rcases outcome : waitAllAndUpdateRegs k fuel s.globalState s.world s.processId with
    ⟨_ | _ | list, g, w⟩ <;> rw [outcome] at raised <;> cases raised
  rfl

theorem wait_handedOver (fuel : Nat) : Maintains HandedOver (wait k u fuel) := by
  intro s holds
  refine stateAfter_bind (fun error t raised => ?_) fun results t returned => ?_
  · rw [waitResults_raised raised]
    exact holds
  · obtain ⟨sameManaged, grown⟩ := waitResults_collects returned
    rw [stateAfter_modify_bind]
    refine (manageChange_touches results).handedOver (by decide) _ fun st reported => ?_
    have sameCollected : collected (t.noteManaged results).world.log = collected t.world.log :=
      noteManaged_touches results t .collected (by decide)
    rw [managed_noteManaged, sameCollected, grown st reported, List.count_append,
      List.count_reverse, sameManaged, holds st reported]

theorem finishBacktrace_handedOver (fuel : Nat) (threadId : Int) (returnAddress : Nat) :
    Maintains HandedOver (finishBacktrace k u fuel threadId returnAddress) := by
  refine Keeps.bind ((prepareFinish_touches _ _).handedOver (by decide)) fun ⟨bp, found⟩ => ?_
  refine (cont_touches.handedOver (by decide)).bind fun _ => (wait_handedOver fuel).bind fun _ => ?_
  exact Keeps.ite (fun _ => (unsetBreakpoint_touches bp true).handedOver (by decide))
    fun _ => Keeps.pure _

theorem finish_handedOver (fuel : Nat) (threadId : Int) (heuristic : String)
    (returnAddress : Option Nat) :
    Maintains HandedOver (finish k u fuel threadId heuristic returnAddress) := by
  refine Keeps.ite (fun _ => (finishStepMode_touches _ _).handedOver (by decide)) fun _ =>
    Keeps.ite (fun _ => ?_) fun _ => Keeps.throw _
  split
  · exact finishBacktrace_handedOver _ _ _
  · exact Keeps.throw _

theorem setupParent_handedOver (fuel : Nat) : Maintains HandedOver (setupParent k u fuel) :=
  Keeps.bind (Keeps.modify fun _ holds => holds) fun _ => (wait_handedOver fuel).bind fun _ =>
    Keeps.modify fun _ holds => holds

theorem program_handedOver (command : Command) :
    Maintains HandedOver (command.program k u) := by
  cases command with
  | registerNewThread threadId => exact (registerNewThread_touches _).handedOver (by decide)
  | setupParent fuel => exact setupParent_handedOver fuel
  | act action =>
      have touches : Touches _ (modify (·.perform action) : Py K Unit) :=
        Keeps.modify fun s => perform_changes s action
      exact touches.handedOver (by decide)
  | breakpoint => exact (breakpoint_touches _ _ _ _ _ _).handedOver (by decide)
  | handleSyscall number onEnter onExit recursive =>
      exact ensureAlive_keeps.bind fun _ =>
        (putHandler_touches (F := ∅) number onEnter onExit recursive).handedOver (by decide)
  | catchSignal => exact (catchSignal_touches (F := ∅) _ _ _).handedOver (by decide)
  | interrupt => exact Keeps.modify fun _ holds => holds
  | cont => exact cont_touches.handedOver (by decide)
  | step threadId => exact (step_touches threadId).handedOver (by decide)
  | stepUntil => exact (stepUntil_touches _ _ _ _).handedOver (by decide)
  | finish => exact finish_handedOver _ _ _ _
  | wait fuel =>
      exact ((setResume_touches true).handedOver (F := ∅) (by decide)).bind fun _ =>
        wait_handedOver fuel

/-! ### Whole runs -/

theorem handedOver_of_run {world : World K} (fresh : world.log = []) {commands : List Command}
    {s : Debugger K} (reached : (debugging k u).run (.initial world) commands = some s) :
    HandedOver s := by
  refine Machine.run_invariant (fun s command next holds _ stepped => ?_) (fun st _ => ?_)
    Machine.meets_always reached
  · exact Debugger.stateAfter_of_command stepped ▸ program_handedOver command s holds
  · simp [Debugger.initial, fresh, managed, reapedAt]

/-- In every run no status is lost if and only if the loops that step are told of
nothing but the ends of their steps. -/
theorem no_status_lost_iff {world : World K} (fresh : world.log = []) {commands : List Command}
    {s : Debugger K} (reached : (debugging k u).run (.initial world) commands = some s) :
    NoStatusLost s.world.log ↔ StepsUndisturbed s.world.log := by
  have handedOver := handedOver_of_run fresh reached
  have split (st : ThreadStatus) : (reapedInLib s.world.log).count st =
      (collected s.world.log).count st + (reapedInSteps s.world.log).count st := by
    simp only [reapedInLib, reapedInSteps, List.count_append]
    omega
  have reported {st : ThreadStatus} (outside : foreign st = true) : st.cause ≠ .unreported := by
    simp_all [foreign]
  constructor
  · intro kept st member
    by_contra outside
    have outside := Bool.eq_true_of_not_eq_false outside
    have counted := kept st outside
    have positive := List.count_pos_iff.mpr member
    rw [split, handedOver st (reported outside)] at counted
    omega
  · intro undisturbed st outside
    have absent : (reapedInSteps s.world.log).count st = 0 :=
      List.count_eq_zero.mpr fun member => by simp [undisturbed st member] at outside
    rw [split, absent, handedOver st (reported outside), Nat.add_zero]

/-- Thread 1 at `0x1000`; `waitpid` reports one status. -/
def reporting (st : ThreadStatus) : World Script :=
  .nops { registers := fun _ => some fun _ => 0x1000, reports := [some st] }

/-- Stepping until it is back at `0x1000`. -/
def stepAround : List Command := [.registerNewThread 1, .stepUntil 1 1 0x1000 (-1)]

/-- The end of the step is no status from outside. -/
theorem ended_step_not_lost :
    ∃ s, (debugging scripted idle).run (.initial (reporting ⟨1, 0x057f, .singleStep⟩)) stepAround =
        some s ∧ NoStatusLost s.world.log := by
  obtain ⟨s, reached, undisturbed⟩ : ∃ s, (debugging scripted idle).run
      (.initial (reporting ⟨1, 0x057f, .singleStep⟩)) stepAround = some s ∧
      StepsUndisturbed s.world.log := Machine.exists_of_run (by decide)
  exact ⟨s, reached, (no_status_lost_iff rfl reached).mpr undisturbed⟩

/-- A `SIGUSR1` that arrives instead is dropped by `step_until`. -/
theorem signal_lost_in_step_until :
    ∃ s, (debugging scripted idle).run (.initial (reporting ⟨1, 0x0a7f, .delivery⟩)) stepAround =
        some s ∧ ¬ NoStatusLost s.world.log := by
  refine ⟨_, rfl, fun kept => ?_⟩
  exact absurd (kept ⟨1, 0x0a7f, .delivery⟩ rfl) (by decide)

end Libdebug.Ptrace
