import Libdebug.InternalDebugger.RaisingCallbacks
import Libdebug.Ptrace.Tables

/-!
A `cont` that raises while it applies the pending changes of breakpoints. The process is marked as
running before that, and the marks of all breakpoints are taken off before the first change is
applied: an exception takes neither of the two back.
-/

namespace Libdebug.InternalDebugger

open Libdebug.Foundation Libdebug.Cffi Libdebug.Ptrace

variable {K : Type} {k : Kernel K} {s t r : Debugger K}

/-- What `cont` does with the breakpoints before it resumes the process -/
def prepareCont (k : Kernel K) : Py K Unit := do
  forwardSignals
  applyChanges k

/-- The change of a breakpoint cannot be applied, and an exception is raised. -/
def ChangeRaises (k : Kernel K) (s : Debugger K) (error : PyError) (t : Debugger K) : Prop :=
  ∃ forwarded, forwardSignals.run s = .ok () forwarded ∧
    (applyChanges k).run forwarded = .error (.raised error) t

/-- The breakpoint is where it should be: in a debug register of every thread, or in none, or in
the table of the C layer with its flag. -/
def AppliedEverywhere (s : Debugger K) (bp : Ref) : Prop :=
  if (s.objects bp).hardware then
    ∀ helper ∈ s.hardwareBpHelpers.values, (s.objects bp).enabled = true ↔
      ∃ register ∈ DebugReg.all, helper.breakpointRegisters register = some bp
  else
    ((s.objects bp).address, (s.objects bp).enabled) ∈ s.snapshot.entries

instance (s : Debugger K) (bp : Ref) : Decidable (AppliedEverywhere s bp) :=
  by delta AppliedEverywhere; infer_instance

/-- What the user may rely on where `cont` has raised -/
structure KeepsChanges (before after : Polled K) : Prop where
  stopped : after.isRunning = false
  marked : ∀ bp ∈ before.debugger.breakpoints.values,
    (before.debugger.objects bp).changed = true → ¬ AppliedEverywhere after.debugger bp →
      (after.debugger.objects bp).changed = true

/-- No breakpoint is marked as changed. -/
def Unmarked (s : Debugger K) : Prop :=
  ∀ bp ∈ s.breakpoints.values, (s.objects bp).changed = false

/-! ### The marks -/

/-- The first loop takes all marks off, and where there is none it collects nothing. -/
theorem collectChanged_settles (bps : List Ref) (s : Debugger K) :
    ∃ changed, (collectChanged bps).run s = .ok changed (s.settle bps) ∧
      ((∀ bp ∈ bps, (s.objects bp).changed = false) → changed = []) := by
  induction bps generalizing s with
  | nil =>
      have same : s.settle [] = s := by simp [Debugger.settle]
      rw [same]
      exact ⟨[], rfl, fun _ => rfl⟩
  | cons first rest ih =>
      obtain ⟨changed, collected, none⟩ :=
        ih (s.updateBreakpoint first ({ · with disabledForStep := false, changed := false }))
      rw [settle_cons] at collected
      refine ⟨if (s.objects first).changed then first :: changed else changed, ?_, ?_⟩
      · simp only [collectChanged, EStateM.run_bind, EStateM.run_get, EStateM.run_modify,
          collected, EStateM.run_pure]
      · intro unmarked
        obtain ⟨here, others⟩ := List.forall_mem_cons.mp unmarked
        rw [here, if_neg Bool.false_ne_true]
        apply none
        intro bp member
        by_cases same : bp = first
        · simp [Debugger.updateBreakpoint, same]
        · simp [Debugger.updateBreakpoint, same, others bp member]

theorem settle_unmarked (s : Debugger K) : Unmarked (s.settle s.breakpoints.values) := by
  intro bp member
  change bp ∈ s.breakpoints.values at member
  simp [Debugger.settle, member]

/-- To apply a change leaves the breakpoints alone, also where it raises. -/
theorem applyChange_leaves (bp : Ref) :
    Leaves (fun s : Debugger K => (s.objects, s.breakpoints)) (applyChange k bp) := by
  have lib (f : GlobalState → World K → Option (GlobalState × World K)) :
      Leaves (fun s : Debugger K => (s.objects, s.breakpoints)) (callLib? f) := by
    refine Keeps.get.bind fun s => ?_
    split
    · exact Keeps.modify fun _ => rfl
    · exact Keeps.throw _
  have managers {s t : Debugger K} (only : OnlyManagers s t) :
      Same (fun s : Debugger K => (s.objects, s.breakpoints)) s t := by
    obtain ⟨os, helpers, rfl⟩ := only
    rfl
  have placed (bp : Ref) : Leaves (fun s : Debugger K => (s.objects, s.breakpoints))
      (placeBreakpoint k bp false) := by
    intro s
    by_cases hardware : (s.objects bp).hardware = true
    · exact managers (placeBreakpoint_onlyManagers hardware false)
    · rw [placeBreakpoint, stateAfter_get_bind, if_neg hardware, if_neg Bool.false_ne_true]
      exact (Keeps.get.bind fun s => lib _) s
  have displaced (bp : Ref) : Leaves (fun s : Debugger K => (s.objects, s.breakpoints))
      (displaceBreakpoint k bp false) := by
    intro s
    by_cases hardware : (s.objects bp).hardware = true
    · exact managers (displaceBreakpoint_onlyManagers hardware false)
    · rw [displaceBreakpoint, stateAfter_get_bind, if_neg hardware, if_neg Bool.false_ne_true]
      exact (Keeps.get.bind fun s => lib _) s
  refine Keeps.get.bind fun s => Keeps.ite (fun _ => ?_) fun _ => ?_
  · exact (placed bp).bind fun _ => Keeps.pure _
  · exact (displaced bp).bind fun _ => Keeps.pure _

/-- **Whether the changes are applied or one of them raises**, no mark is left. -/
theorem applyChanges_unmarks (s : Debugger K) : Unmarked (stateAfter (applyChanges k) s) := by
  obtain ⟨changed, collected, -⟩ := collectChanged_settles s.breakpoints.values s
  have applied : Leaves (fun s : Debugger K => (s.objects, s.breakpoints))
      (changed.forM (applyChange k)) := Keeps.forM fun bp _ => applyChange_leaves bp
  have same := applied (s.settle s.breakpoints.values)
  rw [applyChanges, stateAfter_get_bind, stateAfter_bind_ok collected]
  obtain ⟨objects, breakpoints⟩ := Prod.mk.inj same
  intro bp member
  rw [breakpoints] at member
  rw [objects]
  exact settle_unmarked s bp member

/-- **Without marks, a later `cont` applies nothing.** -/
theorem prepareCont_unmarked (unmarked : Unmarked s) :
    (stateAfter (prepareCont k) s).hardwareBpHelpers = s.hardwareBpHelpers ∧
      (stateAfter (prepareCont k) s).globalState.bHead = s.globalState.bHead := by
  have left := forwardSignals_leaves s
  simp only [Same, Prod.mk.injEq] at left
  obtain ⟨objects, _, breakpoints, helpers, _⟩ := left
  have table : (stateAfter forwardSignals s).globalState.bHead = s.globalState.bHead :=
    forwardSignals_touches s .table (by decide)
  rw [prepareCont]
  refine stateAfter_bind (motive := fun r : Debugger K =>
    r.hardwareBpHelpers = s.hardwareBpHelpers ∧ r.globalState.bHead = s.globalState.bHead) ?_ ?_
  · intro e t raised
    rw [stateAfter_of_error raised] at helpers table
    exact ⟨helpers, table⟩
  · intro _ t returned
    rw [stateAfter_of_ok returned] at objects breakpoints helpers table
    obtain ⟨changed, collected, none⟩ := collectChanged_settles t.breakpoints.values t
    have empty : changed = [] := by
      apply none
      rw [objects, breakpoints]
      exact unmarked
    have settled : stateAfter (applyChanges k) t = t.settle t.breakpoints.values := by
      rw [applyChanges, stateAfter_get_bind, stateAfter_bind_ok collected, empty]
      rfl
    rw [settled]
    exact ⟨helpers, table⟩

/-! ### The flag -/

/-- The exception comes out of `cont`, and leaves the flag that was set before. -/
theorem polledCont_raises {error : PyError} (before : Polled K)
    (raises : ChangeRaises k before.debugger error t) :
    joinAndCheckStatus (polledCont k) before = some (some error, ⟨t, true⟩) := by
  obtain ⟨forwarded, first, second⟩ := raises
  have raised : (Ptrace.cont k).run before.debugger = .error (.raised error) t := by
    rw [Ptrace.cont, EStateM.run_bind, first]
    simp only [EStateM.run_bind, second]
  have polled : (polledCont k).run before = .error (.raised error) ⟨t, true⟩ := by
    have after : (onDebugger (Ptrace.cont k)).run { before with isRunning := true } =
        .error (.raised error) ⟨t, true⟩ := by
      rw [run_onDebugger, raised]
    rw [polledCont, setRunning, EStateM.run_bind, EStateM.run_modify]
    exact after
  rw [joinAndCheckStatus, polled]

/-- **A `cont` that cannot apply a change loses it**: the exception comes out of it, and then the
process counts as running, no breakpoint is marked, and a later `cont` applies nothing. -/
theorem failed_cont_loses {error : PyError} (before : Polled K)
    (raises : ChangeRaises k before.debugger error t) :
    ∃ after, joinAndCheckStatus (polledCont k) before = some (some error, after) ∧
      ¬ KeepsChanges before after ∧ after.isRunning = true ∧ Unmarked after.debugger ∧
      (stateAfter (prepareCont k) after.debugger).hardwareBpHelpers =
        after.debugger.hardwareBpHelpers ∧
      (stateAfter (prepareCont k) after.debugger).globalState.bHead =
        after.debugger.globalState.bHead := by
  have unmarked : Unmarked t := by
    obtain ⟨forwarded, _, second⟩ := raises
    have kept := applyChanges_unmarks (k := k) forwarded
    rwa [stateAfter_of_error second] at kept
  refine ⟨⟨t, true⟩, polledCont_raises before raises, ?_, rfl, unmarked,
    prepareCont_unmarked unmarked⟩
  intro keeps
  exact absurd keeps.stopped Bool.true_eq_false.mp

/-! ### No debug register is free -/

/-- A thread with four hardware breakpoints, one of which makes room for a fifth and is enabled
again -/
def noRegisterFree : List Ptrace.Command :=
  [.registerNewThread 1, .breakpoint 0x1000 "" true (some "x") 1 none,
    .breakpoint 0x2000 "" true (some "x") 1 none, .breakpoint 0x3000 "" true (some "x") 1 none,
    .breakpoint 0x4000 "" true (some "x") 1 none, .act (.disableBreakpoint 0), .cont,
    .breakpoint 0x5000 "" true (some "x") 1 none, .act (.enableBreakpoint 0)]

/-- What a program raises -/
def raisedBy {α : Type} (p : Py K α) (s : Debugger K) : Option Abort :=
  match p.run s with
  | .ok _ _ => none
  | .error error _ => some error

theorem error_of_raisedBy {α : Type} {p : Py K α} {error : Abort}
    (raised : raisedBy p s = some error) : p.run s = .error error (stateAfter p s) := by
  unfold raisedBy at raised
  split at raised
  · cases raised
  · rename_i ended
    cases raised
    rw [ended, stateAfter_of_error ended]

/-- The change of a marked breakpoint raises, and is neither in force nor marked afterwards. -/
def Loses (k : Kernel K) (s : Debugger K) (bp : Ref) : Prop :=
  bp ∈ s.breakpoints.values ∧ (s.objects bp).changed = true ∧
    raisedBy (applyChanges k) s =
      some (.raised (.runtimeError "No more hardware breakpoints available.")) ∧
    ¬ AppliedEverywhere (stateAfter (applyChanges k) s) bp ∧
    ((stateAfter (applyChanges k) s).objects bp).changed = false

instance (k : Kernel K) (s : Debugger K) (bp : Ref) : Decidable (Loses k s bp) :=
  inferInstanceAs (Decidable (_ ∧ _))

theorem noRegisterFree_raises :
    ∃ s, (debugging scripted idle).run (.initial (.nops { registers := fun _ => none }))
        noRegisterFree = some s ∧
      s.resumeContext.threadsWithSignalsToForward = [] ∧ Loses scripted s 0 :=
  Machine.exists_of_run (by decide +kernel)

/-- Without signals to forward, the state in which the changes are applied is the one there is. -/
theorem Loses.changeRaises {bp : Ref} (loses : Loses k s bp)
    (quiet : s.resumeContext.threadsWithSignalsToForward = []) :
    ChangeRaises k s (.runtimeError "No more hardware breakpoints available.")
      (stateAfter (applyChanges k) s) := by
  refine ⟨s, ?_, error_of_raisedBy loses.2.2.1⟩
  have nothing : ¬ s.resumeContext.threadsWithSignalsToForward ≠ [] := not_not.mpr quiet
  rw [forwardSignals, EStateM.run_bind, EStateM.run_get]
  simp only [nothing, if_false]
  rfl

theorem noRegisterFree_loses : ∃ s t,
    (debugging scripted idle).run (.initial (.nops { registers := fun _ => none }))
        noRegisterFree = some s ∧
      ChangeRaises scripted s (.runtimeError "No more hardware breakpoints available.") t ∧
      ∃ after, joinAndCheckStatus (polledCont scripted) ⟨s, false⟩ =
          some (some (.runtimeError "No more hardware breakpoints available."), after) ∧
        ¬ KeepsChanges ⟨s, false⟩ after ∧ after.isRunning = true ∧ Unmarked after.debugger ∧
        (stateAfter (prepareCont scripted) after.debugger).hardwareBpHelpers =
          after.debugger.hardwareBpHelpers ∧
        (stateAfter (prepareCont scripted) after.debugger).globalState.bHead =
          after.debugger.globalState.bHead := by
  obtain ⟨s, reached, quiet, loses⟩ := noRegisterFree_raises
  have raises := loses.changeRaises quiet
  exact ⟨s, _, reached, raises, failed_cont_loses ⟨s, false⟩ raises⟩

/-- The breakpoint that is enabled while no debug register is free: after `cont` has raised the
process counts as running, and the breakpoint is in no register and not marked. -/
theorem enable_is_lost : ∃ s after,
    (debugging scripted idle).run (.initial (.nops { registers := fun _ => none }))
        noRegisterFree = some s ∧
      joinAndCheckStatus (polledCont scripted) ⟨s, false⟩ =
        some (some (.runtimeError "No more hardware breakpoints available."), after) ∧
      after.isRunning = true ∧
      ((0 : Ref) ∈ s.breakpoints.values ∧ (s.objects 0).changed = true ∧
        ¬ AppliedEverywhere after.debugger 0 ∧ (after.debugger.objects 0).changed = false) ∧
      ¬ KeepsChanges ⟨s, false⟩ after := by
  obtain ⟨s, reached, quiet, loses⟩ := noRegisterFree_raises
  have raises := loses.changeRaises quiet
  obtain ⟨member, marked, _, missing, unmarked⟩ := loses
  refine ⟨s, ⟨_, true⟩, reached, polledCont_raises ⟨s, false⟩ raises, rfl,
    ⟨member, marked, missing, unmarked⟩, ?_⟩
  intro keeps
  have kept := keeps.marked 0 member marked missing
  rw [unmarked] at kept
  exact absurd kept Bool.false_ne_true

end Libdebug.InternalDebugger
