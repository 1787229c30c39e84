import Libdebug.Ptrace.Footprints
import Libdebug.Ptrace.HijackLoops
import Libdebug.Ptrace.Managers

/-!
Every signal that is caught may be caught: `catch_signal` refuses `SIGSTOP` and a number without a
name, and nothing else adds a catcher.
-/

namespace Libdebug.Ptrace

open Libdebug.Foundation Libdebug.Cffi

variable {K α : Type} {k : Kernel K} {u : UserCode K}

/-- The signals that are caught stay the same. -/
abbrev SparesCatchers (p : Py K α) : Prop := Leaves (fun s => s.caughtSignals.keys) p

namespace SparesCatchers

theorem callLib (f : GlobalState → World K → α × GlobalState × World K) :
    SparesCatchers (callLib f) := fun _ => rfl

theorem callLib? (f : GlobalState → World K → Option (GlobalState × World K)) :
    SparesCatchers (callLib? f) := Keeps.get_bind fun s => by
  split <;> rfl

theorem of_onlyManagers {p : Py K α} (managers : Keeps OnlyManagers p) : SparesCatchers p := by
  intro s
  obtain ⟨os, helpers, same⟩ := managers s
  rw [Same, same]
  rfl

theorem raiseErrnoIf (failed : Prop) [Decidable failed] :
    SparesCatchers (raiseErrnoIf k failed) :=
  Keeps.get.bind fun _ => Keeps.ite (fun _ => Keeps.throw _) fun _ => Keeps.pure _

/-! ### Breakpoints -/

theorem installBreakpoint (threadId : Int) (bp : Ref) :
    SparesCatchers (installBreakpoint k threadId bp) :=
  of_onlyManagers (installBreakpoint_onlyManagers threadId bp)

theorem removeBreakpoint (threadId : Int) (bp : Ref) :
    SparesCatchers (removeBreakpoint k threadId bp) :=
  of_onlyManagers (removeBreakpoint_onlyManagers threadId bp)

theorem setBreakpoint (bp : Ref) (insert : Bool) : SparesCatchers (setBreakpoint k bp insert) := by
  refine Keeps.bind (Keeps.get.bind fun s => Keeps.ite (fun _ => ?_) fun _ => ?_)
    fun _ => Keeps.ite (fun _ => Keeps.modify fun s => rfl) fun _ => Keeps.pure _
  · exact Keeps.forM fun threadId _ => installBreakpoint threadId bp
  · exact Keeps.ite (fun _ => Keeps.get.bind fun _ => callLib _)
      fun _ => Keeps.get.bind fun _ => callLib? _

theorem unsetBreakpoint (bp : Ref) (delete : Bool) :
    SparesCatchers (unsetBreakpoint k bp delete) := by
  refine Keeps.bind (Keeps.get.bind fun s => Keeps.ite (fun _ => ?_) fun _ => ?_) fun _ => ?_
  · exact Keeps.forM fun threadId _ => removeBreakpoint threadId bp
  · exact Keeps.ite (fun _ => Keeps.get.bind fun _ => callLib _)
      fun _ => Keeps.get.bind fun _ => callLib? _
  · refine Keeps.ite (fun _ => Keeps.get.bind fun s => ?_) fun _ => Keeps.pure _
    exact Keeps.ite (fun _ => Keeps.modify fun _ => rfl) fun _ => Keeps.throw _

theorem newBreakpoint (bp : Breakpoint) : SparesCatchers (newBreakpoint bp : Py K Ref) :=
  fun _ => rfl

theorem breakpoint (address : Nat) (symbol : String) (hardware : Bool)
    (condition : Option String) (length : Nat) (callback : Option Callback) :
    SparesCatchers (breakpoint k address symbol hardware condition length callback) :=
  ensureAlive_keeps.bind fun _ => (checkCondition_keeps _ _ _).bind fun _ =>
    (newBreakpoint _).bind fun bp => (setBreakpoint bp _).bind fun _ =>
      Keeps.get.bind fun _ => Keeps.ite (fun _ => Keeps.throw _) fun _ => Keeps.pure _

/-! ### Threads and resuming -/

theorem registerNewThread (threadId : Int) : SparesCatchers (registerNewThread k threadId) :=
  Keeps.bind (callLib _) fun _ => Keeps.bind (Keeps.modify fun _ => rfl) fun _ =>
    Keeps.get.bind fun _ => Keeps.forM fun bp _ => installBreakpoint threadId bp

theorem unregisterThread (threadId : Int) (exitCode exitSignal : Option Nat) :
    SparesCatchers (unregisterThread threadId exitCode exitSignal : Py K Unit) := by
  refine Keeps.bind (callLib _) fun _ => Keeps.bind (Keeps.modify fun s => ?_) fun _ =>
    Keeps.get.bind fun _ => Keeps.ite (fun _ => Keeps.modify fun _ => rfl) fun _ => Keeps.throw _
  unfold Debugger.setThreadAsDead
  split <;> rfl

theorem forwardSignals : SparesCatchers (forwardSignals : Py K Unit) := by
  have forwards (node : Thread) : SparesCatchers (forwardSignalTo node : Py K Unit) := by
    refine Keeps.get.bind fun s => Keeps.ite (fun _ => ?_) fun _ => Keeps.pure _
    split
    · exact Keeps.throw _
    · exact Keeps.ite (fun _ => Keeps.modify fun _ => rfl) fun _ => Keeps.pure _
  refine Keeps.get.bind fun _ => Keeps.ite (fun _ => ?_) fun _ => Keeps.pure _
  exact Keeps.get.bind fun _ => Keeps.bind (Keeps.forM fun node _ => forwards node)
    fun _ => Keeps.modify fun _ => rfl

theorem collectChanged (bps : List Ref) :
    SparesCatchers (collectChanged bps : Py K (List Ref)) := by
  induction bps with
  | nil => exact Keeps.pure _
  | cons bp rest ih =>
      exact Keeps.get.bind fun _ => Keeps.bind (Keeps.modify fun _ => rfl) fun _ =>
        ih.bind fun _ => Keeps.pure _

theorem cont : SparesCatchers (cont k) := by
  have applies (bp : Ref) : SparesCatchers (applyChange k bp) :=
    Keeps.get.bind fun _ =>
      Keeps.ite (fun _ => setBreakpoint bp _) fun _ => unsetBreakpoint bp _
  have changes : SparesCatchers (applyChanges k) :=
    Keeps.get.bind fun _ => (collectChanged _).bind fun _ => Keeps.forM fun bp _ => applies bp
  exact forwardSignals.bind fun _ => changes.bind fun _ =>
    Keeps.bind (Keeps.modify fun _ => rfl) fun _ => Keeps.bind (Keeps.modify fun _ => rfl) fun _ =>
      (callLib _).bind fun _ => raiseErrnoIf _

theorem disableForStep : SparesCatchers (disableForStep : Py K Unit) :=
  Keeps.get.bind fun _ => Keeps.forM fun _ _ => Keeps.modify fun _ => rfl

theorem step (threadId : Int) : SparesCatchers (step k threadId) :=
  disableForStep.bind fun _ => (callLib _).bind fun _ => (raiseErrnoIf _).bind fun _ =>
    Keeps.modify fun _ => rfl

theorem checkLoop (result : Option Int) : SparesCatchers (checkLoop k result) := by
  cases result with
  | none => exact Keeps.throw _
  | some result => exact raiseErrnoIf _

theorem stepUntil (fuel : Nat) (threadId : Int) (address : Nat) (maxSteps : Int) :
    SparesCatchers (stepUntil k fuel threadId address maxSteps) :=
  disableForStep.bind fun _ => (callLib _).bind fun _ => checkLoop _

/-! ### The status handler -/

theorem runCallback (site : CallSite) (callback : Callback) (threadId : Int) :
    SparesCatchers (runCallback u site callback threadId) := fun s => by
  rw [Same, stateAfter_runCallback]
  exact (Debugger.keys_performAll _ _).2

theorem isWatchpointHit (threadId : Int) : SparesCatchers (isWatchpointHit k threadId) := by
  refine (getHelper_keeps _).bind fun helper => (peekUser_keeps _ _).bind fun _ =>
    Keeps.get.bind fun s => ?_
  split <;> exact Keeps.pure _

theorem handleBreakpoints (threadId : Int) : SparesCatchers (handleBreakpoints k u threadId) := by
  have credits (bp : Ref) : SparesCatchers (creditHit u threadId bp) := by
    refine Keeps.bind (Keeps.modify fun _ => rfl) fun _ => Keeps.get.bind fun s => ?_
    split
    · exact runCallback _ _ _
    · exact Keeps.modify fun _ => rfl
  have finds (thread : ThreadContext) (ip : Nat) :
      SparesCatchers (findHit k threadId thread ip) := by
    refine Keeps.get.bind fun s => ?_
    split
    · exact Keeps.pure _
    · split
      · exact Keeps.bind (Keeps.modify fun _ => rfl) fun _ => Keeps.pure _
      · exact isWatchpointHit threadId
  refine Keeps.get.bind fun s => ?_
  split
  · exact Keeps.modify fun _ => rfl
  · refine (finds _ _).bind fun hit => ?_
    split
    · exact credits _
    · exact Keeps.pure _

theorem updateCatcher (number : Nat) (f : SignalCatcher → SignalCatcher) :
    SparesCatchers (modify (·.updateCatcher number f) : Py K Unit) :=
  Keeps.modify fun _ => Dict.keys_modify

theorem handleEvent (pid : Int) (event : Nat) (results : List ThreadStatus) :
    SparesCatchers (handleEvent k pid event results) := by
  have forwards : SparesCatchers (modify (·.setForwardSignal false) : Py K Unit) :=
    Keeps.modify fun _ => rfl
  refine Keeps.ite (fun _ => Keeps.get.bind fun s => Keeps.bind ?_ fun _ => forwards) fun _ =>
    Keeps.ite (fun _ => forwards) fun _ => Keeps.pure _
  refine Keeps.bind (Keeps.ite (fun _ => Keeps.pure _) fun _ => ?_) fun _ => registerNewThread _
  exact (callLib _).bind fun _ => raiseErrnoIf _

theorem internalSignalHandler (pid : Int) (signum : Nat) (results : List ThreadStatus)
    (status : Nat) : SparesCatchers (internalSignalHandler k u pid signum results status) := by
  have stops : SparesCatchers (modify (·.setResume false) : Py K Unit) := Keeps.modify fun _ => rfl
  have syscalls : SparesCatchers (handleSyscall u pid : Py K Unit) :=
    handleSyscall_keeps (fun _ _ => Keeps.modify fun _ => rfl) stops runCallback pid
  refine Keeps.get.bind fun s =>
    Keeps.ite (fun _ => syscalls.bind fun _ => Keeps.modify fun _ => rfl) fun _ =>
      Keeps.ite (fun _ => Keeps.modify fun _ => rfl) fun _ => Keeps.ite (fun _ => ?_)
        fun _ => Keeps.pure _
  refine (handleBreakpoints pid).bind fun _ => Keeps.bind (Keeps.modify fun s => ?_) fun _ =>
    handleEvent _ _ _
  split <;> rfl

theorem handleStop (st : ThreadStatus) (signum : Nat) :
    SparesCatchers (handleStop u st signum) := by
  have stops : SparesCatchers (modify (·.setResume false) : Py K Unit) := Keeps.modify fun _ => rfl
  refine Keeps.bind (Keeps.get.bind fun _ => Keeps.pure _) fun thread => ?_
  split
  · exact Keeps.pure _
  · refine Keeps.bind (Keeps.modify fun _ => rfl) fun _ =>
      (handleSignal_keeps updateCatcher stops runCallback _ _).bind fun _ =>
        Keeps.modify fun s => ?_
    split <;> rfl

theorem handleChange (st : ThreadStatus) (results : List ThreadStatus) :
    SparesCatchers (handleChange k u st results) := by
  have exits (exitCode exitSignal : Option Nat) :
      SparesCatchers (handleExit st.tid exitCode exitSignal : Py K Unit) :=
    handleExit_keeps unregisterThread _ _ _
  exact Keeps.bind (Keeps.modify fun _ => rfl) fun _ => Keeps.get.bind fun s =>
    Keeps.ite (fun _ => Keeps.ite (fun _ => Keeps.pure _) fun _ =>
      (internalSignalHandler _ _ _ _).bind fun _ => handleStop _ _) fun _ =>
        Keeps.ite (fun _ => exits _ _) fun _ => Keeps.ite (fun _ => exits _ _) fun _ => Keeps.pure _

theorem waitResults (fuel : Nat) : SparesCatchers (waitResults k fuel) := by
  refine Keeps.get.bind fun s => ?_
  split
  · exact Keeps.throw _
  · exact Keeps.bind (Keeps.modify fun _ => rfl) fun _ => Keeps.pure _
  · exact Keeps.bind (Keeps.modify fun _ => rfl) fun _ => Keeps.pure _

theorem wait (fuel : Nat) : SparesCatchers (wait k u fuel) :=
  (waitResults fuel).bind fun _ => Keeps.bind (Keeps.modify fun _ => rfl) fun _ =>
    Keeps.forM fun st _ => handleChange st _

theorem finish (fuel : Nat) (threadId : Int) (heuristic : String) (returnAddress : Option Nat) :
    SparesCatchers (finish k u fuel threadId heuristic returnAddress) := by
  have sets (returnAddress : Nat) :
      SparesCatchers (setReturnBreakpoint k threadId returnAddress) :=
    Keeps.bind ((getHelper_keeps _).bind fun _ => Keeps.pure _) fun _ =>
      (newBreakpoint _).bind fun bp => (setBreakpoint bp _).bind fun _ => Keeps.pure _
  have prepares (returnAddress : Nat) :
      SparesCatchers (prepareFinish k threadId returnAddress) := by
    refine Keeps.get.bind fun s => ?_
    split
    · refine Keeps.bind (Keeps.get.bind fun _ => Keeps.ite (fun _ => ?_) fun _ => Keeps.pure _)
        fun _ => Keeps.pure _
      exact Keeps.get.bind fun _ => callLib? _
    · exact (sets returnAddress).bind fun _ => Keeps.pure _
  refine Keeps.ite (fun _ => (callLib _).bind fun _ => checkLoop _) fun _ =>
    Keeps.ite (fun _ => ?_) fun _ => Keeps.throw _
  cases returnAddress with
  | none => exact Keeps.throw _
  | some returnAddress =>
      exact (prepares returnAddress).bind fun ⟨bp, found⟩ => cont.bind fun _ => (wait fuel).bind
        fun _ => Keeps.ite (fun _ => unsetBreakpoint bp true) fun _ => Keeps.pure _

end SparesCatchers

/-! ### Whole runs -/

/-- No `SIGSTOP` is caught, and no signal without a name. -/
def Debugger.Catchable (s : Debugger K) : Prop :=
  ∀ number ∈ s.caughtSignals.keys, number ≠ SIGSTOP ∧ hasSignalName number = true

/-- What `catch_signal` adds has passed its checks. -/
theorem catchSignal_catchable (number : Nat) (callback : Option Callback) (recursive : Bool) :
    Maintains Debugger.Catchable (catchSignal number callback recursive : Py K Unit) := by
  refine ensureAlive_keeps.bind fun _ s catchable => ?_
  by_cases refused : number = SIGKILL ∨ number = SIGSTOP ∨ number = SIGTRAP
  · obtain ⟨message, raised⟩ : ∃ message,
        (checkCatchable number : Py K Unit) = raise (.valueError message) := by
      unfold checkCatchable
      split_ifs <;> first | exact ⟨_, rfl⟩ | tauto
    rw [raised]
    exact catchable
  obtain ⟨notKill, notStop, notTrap⟩ := by simpa using refused
  have checks : (checkCatchable number : Py K Unit) = pure () := by
    rw [checkCatchable, if_neg notKill, if_neg notStop, if_neg notTrap]
  rw [checks, pure_bind, resolveSignalName]
  split
  · rename_i named
    intro other member
    obtain ⟨catcher, there⟩ := Dict.mem_keys.mp member
    rw [pure_bind, stateAfter_modify, Dict.get?_set] at there
    split_ifs at there with new
    · exact new ▸ ⟨notStop, named⟩
    · exact catchable other (Dict.mem_keys.mpr ⟨catcher, there⟩)
  · exact catchable

theorem program_catchable (command : Command) :
    Maintains Debugger.Catchable (command.program k u) := by
  have spares {p : Py K Unit} (kept : SparesCatchers p) : Maintains Debugger.Catchable p :=
    kept.maintains fun keys => ∀ number ∈ keys, number ≠ SIGSTOP ∧ hasSignalName number = true
  cases command with
  | registerNewThread threadId => exact spares (.registerNewThread threadId)
  | setupParent fuel =>
      exact spares (Keeps.bind (Keeps.modify fun _ => rfl) fun _ =>
        (SparesCatchers.wait fuel).bind fun _ => Keeps.modify fun _ => rfl)
  | act action => exact spares (Keeps.modify fun s => (s.keys_perform action).2)
  | breakpoint => exact spares (.breakpoint _ _ _ _ _ _)
  | handleSyscall =>
      refine spares (ensureAlive_keeps.bind fun _ => Keeps.modify fun s => ?_)
      unfold Debugger.putHandler
      split <;> rfl
  | catchSignal number callback recursive => exact catchSignal_catchable number callback recursive
  | interrupt => exact spares (Keeps.modify fun _ => rfl)
  | cont => exact spares .cont
  | step threadId => exact spares (.step threadId)
  | stepUntil => exact spares (.stepUntil _ _ _ _)
  | finish => exact spares (.finish _ _ _ _)
  | wait fuel => exact spares (Keeps.bind (Keeps.modify fun _ => rfl) fun _ =>
      SparesCatchers.wait fuel)

theorem reachable_catchable {world : World K} {commands : List Command} {s : Debugger K}
    (reached : (debugging k u).run (.initial world) commands = some s) : s.Catchable := by
  have initially : (Debugger.initial world).Catchable :=
    fun _ member => absurd member List.not_mem_nil
  apply Machine.run_invariant (motive := Debugger.Catchable) _ initially Machine.meets_always
    reached
  intro s command next catchable _ stepped
  have same : stateAfter (command.program k u) s = next := Debugger.stateAfter_of_command stepped
  exact same ▸ program_catchable command s catchable

end Libdebug.Ptrace
