import Libdebug.Ptrace.Commands

/-!
What belongs to the user and to the status handler. The methods that place breakpoints,
register threads and resume the tracee read some of it, and leave all of it as it is.
-/

namespace Libdebug.Ptrace

open Libdebug.Foundation Libdebug.Cffi

variable {K : Type} {k : Kernel K} {α : Type}

structure UserSide where
  handledSyscalls : Dict Nat SyscallHandler
  caughtSignals : Dict Nat SignalCatcher
  signalsToBlock : List Nat
  called : List (CallSite × Int)
  resume : Bool
  forceInterrupt : Bool
  isStartup : Bool

def Debugger.userSide (s : Debugger K) : UserSide where
  handledSyscalls := s.handledSyscalls
  caughtSignals := s.caughtSignals
  signalsToBlock := s.signalsToBlock
  called := s.called
  resume := s.resumeContext.resume
  forceInterrupt := s.resumeContext.forceInterrupt
  isStartup := s.resumeContext.isStartup

abbrev SparesUser (p : Py K α) : Prop := Leaves Debugger.userSide p

theorem modify_sparesUser {f : Debugger K → Debugger K}
    (spares : ∀ s, (f s).userSide = s.userSide) : SparesUser (modify f : Py K Unit) :=
  Keeps.modify spares

/-! ### The C layer and the debug registers -/

theorem callLib_sparesUser (f : GlobalState → World K → α × GlobalState × World K) :
    SparesUser (callLib f) := fun _ => rfl

theorem callLib?_sparesUser (f : GlobalState → World K → Option (GlobalState × World K)) :
    SparesUser (callLib? f) := by
  refine Keeps.get.bind fun s => ?_
  split
  · exact modify_sparesUser fun t => rfl
  · exact Keeps.throw _

theorem raiseErrnoIf_sparesUser (failed : Prop) [Decidable failed] :
    SparesUser (raiseErrnoIf k failed) :=
  Keeps.get.bind fun _ => Keeps.ite (fun _ => Keeps.throw _) fun _ => Keeps.pure _

theorem raiseErrnoIf_ok {failed : Prop} [Decidable failed] {s t : Debugger K}
    (passed : (raiseErrnoIf k failed).run s = .ok () t) : ¬ failed ∧ t = s := by
  simp only [raiseErrnoIf, EStateM.run_bind, EStateM.run_get] at passed
  split at passed
  · cases passed
  · rename_i succeeded
    cases passed
    exact ⟨succeeded, rfl⟩

theorem peekUser_sparesUser (threadId : Int) (address : Nat) :
    SparesUser (peekUser k threadId address) := by
  refine Keeps.get.bind fun s => ?_
  split
  · exact Keeps.pure _
  · exact Keeps.throw _

theorem pokeUser_sparesUser (threadId : Int) (address value : Nat) :
    SparesUser (pokeUser k threadId address value) := by
  apply Keeps.modify
  intro s
  split <;> rfl

theorem getHelper_sparesUser (threadId : Int) :
    SparesUser (getHelper threadId : Py K HardwareBreakpointManager) := by
  refine Keeps.get.bind fun s => ?_
  split
  · exact Keeps.pure _
  · exact Keeps.throw _

theorem installBreakpoint_sparesUser (threadId : Int) (bp : Ref) :
    SparesUser (installBreakpoint k threadId bp) := by
  refine (getHelper_sparesUser _).bind fun helper => Keeps.get.bind fun s => ?_
  refine Keeps.ite (fun _ => Keeps.throw _) fun _ => ?_
  split
  · exact Keeps.throw _
  · refine (pokeUser_sparesUser _ _ _).bind fun _ => ?_
    split
    · exact (peekUser_sparesUser _ _).bind fun _ => (pokeUser_sparesUser _ _ _).bind fun _ =>
        modify_sparesUser fun t => rfl
    · exact Keeps.throw _

theorem removeBreakpoint_sparesUser (threadId : Int) (bp : Ref) :
    SparesUser (removeBreakpoint k threadId bp) := by
  refine (getHelper_sparesUser _).bind fun helper => Keeps.get.bind fun s => ?_
  refine Keeps.ite (fun _ => Keeps.throw _) fun _ => ?_
  split
  · exact Keeps.throw _
  · exact (pokeUser_sparesUser _ _ _).bind fun _ => (peekUser_sparesUser _ _).bind fun _ =>
      (pokeUser_sparesUser _ _ _).bind fun _ => modify_sparesUser fun t => rfl

/-! ### Breakpoints -/

theorem setBreakpoint_sparesUser (bp : Ref) (insert : Bool) :
    SparesUser (setBreakpoint k bp insert) := by
  refine Keeps.bind ?_ fun _ =>
    Keeps.ite (fun _ => modify_sparesUser fun t => rfl) fun _ => Keeps.pure _
  refine Keeps.get.bind fun s =>
    Keeps.ite (fun _ => ?_) fun _ => Keeps.ite (fun _ => ?_) fun _ => ?_
  · exact Keeps.forM fun threadId _ => installBreakpoint_sparesUser threadId bp
  · exact Keeps.get.bind fun _ => callLib_sparesUser _
  · exact Keeps.get.bind fun _ => callLib?_sparesUser _

theorem unsetBreakpoint_sparesUser (bp : Ref) (delete : Bool) :
    SparesUser (unsetBreakpoint k bp delete) := by
  refine Keeps.bind ?_ fun _ =>
    Keeps.ite (fun _ => Keeps.get.bind fun s => ?_) fun _ => Keeps.pure _
  · refine Keeps.get.bind fun s =>
      Keeps.ite (fun _ => ?_) fun _ => Keeps.ite (fun _ => ?_) fun _ => ?_
    · exact Keeps.forM fun threadId _ => removeBreakpoint_sparesUser threadId bp
    · exact Keeps.get.bind fun _ => callLib_sparesUser _
    · exact Keeps.get.bind fun _ => callLib?_sparesUser _
  · exact Keeps.ite (fun _ => modify_sparesUser fun t => rfl) fun _ => Keeps.throw _

/-! ### Resuming -/

theorem forwardSignalTo_sparesUser (node : Thread) :
    SparesUser (forwardSignalTo node : Py K Unit) := by
  refine Keeps.get.bind fun s => Keeps.ite (fun _ => ?_) fun _ => Keeps.pure _
  split
  · exact Keeps.throw _
  · exact Keeps.ite (fun _ => modify_sparesUser fun t => rfl) fun _ => Keeps.pure _

theorem forwardSignals_sparesUser : SparesUser (forwardSignals : Py K Unit) := by
  refine Keeps.get.bind fun s => Keeps.ite (fun _ => ?_) fun _ => Keeps.pure _
  exact Keeps.get.bind fun t => (Keeps.forM fun node _ => forwardSignalTo_sparesUser node).bind
    fun _ => modify_sparesUser fun t => rfl

theorem collectChanged_sparesUser (bps : List Ref) :
    SparesUser (collectChanged bps : Py K (List Ref)) := by
  induction bps with
  | nil => exact Keeps.pure _
  | cons bp rest ih =>
      refine Keeps.get.bind fun s => Keeps.bind (modify_sparesUser fun t => ?_) fun _ =>
        ih.bind fun changed => Keeps.pure _
      rfl

theorem applyChanges_sparesUser : SparesUser (applyChanges k) :=
  Keeps.get.bind fun _ => (collectChanged_sparesUser _).bind fun _ => Keeps.forM fun bp _ =>
    Keeps.get.bind fun _ => Keeps.ite (fun _ => setBreakpoint_sparesUser bp _) fun _ =>
      unsetBreakpoint_sparesUser bp _

theorem cont_sparesUser : SparesUser (cont k) := by
  refine forwardSignals_sparesUser.bind fun _ => applyChanges_sparesUser.bind fun _ =>
    Keeps.bind (modify_sparesUser fun s => ?_) fun _ =>
      Keeps.bind (modify_sparesUser fun s => ?_) fun _ =>
        (callLib_sparesUser _).bind fun _ => raiseErrnoIf_sparesUser _
  · rfl
  · rfl

theorem step_sparesUser (threadId : Int) : SparesUser (step k threadId) := by
  refine Keeps.bind (Keeps.get.bind fun s => Keeps.forM fun bp _ => modify_sparesUser fun s => ?_)
    fun _ => (callLib_sparesUser _).bind fun _ => (raiseErrnoIf_sparesUser _).bind fun _ =>
      modify_sparesUser fun s => ?_
  · rfl
  · rfl

/-! ### Threads, and what a trap is put down to -/

theorem osWaitpid_sparesUser (threadId : Int) : SparesUser (osWaitpid k threadId) :=
  (callLib_sparesUser _).bind fun _ => raiseErrnoIf_sparesUser _

theorem registerNewThread_sparesUser (threadId : Int) :
    SparesUser (registerNewThread k threadId) := by
  refine (callLib_sparesUser _).bind fun file => Keeps.bind (modify_sparesUser fun s => ?_)
    fun _ => Keeps.get.bind fun s => Keeps.forM fun bp _ => installBreakpoint_sparesUser _ bp
  rfl

theorem unregisterThread_sparesUser (threadId : Int) (exitCode exitSignal : Option Nat) :
    SparesUser (unregisterThread threadId exitCode exitSignal : Py K Unit) := by
  refine (callLib_sparesUser _).bind fun _ => Keeps.bind (modify_sparesUser fun s => ?_) fun _ =>
    Keeps.get.bind fun _ => Keeps.ite (fun _ => modify_sparesUser fun s => rfl) fun _ =>
      Keeps.throw _
  unfold Debugger.setThreadAsDead
  split <;> rfl

theorem isWatchpointHit_sparesUser (threadId : Int) : SparesUser (isWatchpointHit k threadId) := by
  refine (getHelper_sparesUser _).bind fun helper => (peekUser_sparesUser _ _).bind fun dr6 =>
    Keeps.get.bind fun s => ?_
  split <;> exact Keeps.pure _

theorem findHit_sparesUser (threadId : Int) (thread : ThreadContext) (ip : Nat) :
    SparesUser (findHit k threadId thread ip) := by
  refine Keeps.get.bind fun s => ?_
  split
  · exact Keeps.pure _
  · split
    · refine Keeps.bind (modify_sparesUser fun t => ?_) fun _ => Keeps.pure _
      rfl
    · exact isWatchpointHit_sparesUser threadId

end Libdebug.Ptrace
