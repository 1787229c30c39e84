import Libdebug.Ptrace.StatusHandler
import Libdebug.Foundation.Runs

/-!
The methods of `PtraceInterface` that wait, the creation of a breakpoint by
`InternalDebugger`, and the machine whose events are the commands of a session. A
command that raises leaves the state it has reached; one that crashes or hangs leads
nowhere.
-/

namespace Libdebug.Ptrace

open Libdebug.Foundation Libdebug.Cffi

variable {K : Type} (k : Kernel K) (u : UserCode K)

/-- The list that `wait` makes of what `wait_all_and_update_regs` returned. -/
def waitResults (fuel : Nat) : Py K (List ThreadStatus) := do
  let s ← get
  match waitAllAndUpdateRegs k fuel s.globalState s.world s.processId with
  | (.polling, _) => throw .hang
  | (.null, globalState, world) => do
      modify ({ · with globalState, world })
      pure []
  | (.statuses results, globalState, world) => do
      modify ({ · with globalState, world })
      pure results

/-- Note that the statuses are handed to the status handler. -/
def Debugger.noteManaged (s : Debugger K) (results : List ThreadStatus) : Debugger K :=
  { s with world := results.foldl (fun w st => w.record (.managed st)) s.world }

def wait (fuel : Nat) : Py K Unit := do
  let results ← waitResults k fuel
  modify (·.noteManaged results)
  manageChange k u results

/-! ### `finish` -/

def finishStepMode (fuel : Nat) (threadId : Int) : Py K Unit := do
  let result ← callLib fun g w => steppingFinish k fuel g w threadId
  checkLoop k result

/-- A breakpoint object with the default values of the other fields. -/
def newBreakpoint (bp : Breakpoint) : Py K Ref :=
  modifyGet fun s =>
    (s.nextRef,
      { s with objects := Function.update s.objects s.nextRef bp, nextRef := s.nextRef + 1 })

/-- A new breakpoint at the return address: a hardware one while some are available. -/
def setReturnBreakpoint (threadId : Int) (returnAddress : Nat) : Py K Ref := do
  let available ← availableBreakpoints threadId
  let bp ← newBreakpoint { address := returnAddress, hardware := available > 0 }
  setBreakpoint k bp true
  pure bp

/-- `elif not ip_breakpoint.enabled: self._enable_breakpoint(ip_breakpoint)` -/
def reuseBreakpoint (bp : Ref) : Py K Unit := do
  let s ← get
  if !(s.objects bp).enabled then enableBreakpoint bp

/-- The breakpoint to stop at, and whether it was found in place. -/
def prepareFinish (threadId : Int) (returnAddress : Nat) : Py K (Ref × Bool) := do
  let s ← get
  match s.breakpoints.values.find? fun bp => (s.objects bp).address = returnAddress with
  | some bp => do
      reuseBreakpoint bp
      pure (bp, true)
  | none => do
      let bp ← setReturnBreakpoint k threadId returnAddress
      pure (bp, false)

def finishBacktrace (fuel : Nat) (threadId : Int) (returnAddress : Nat) : Py K Unit := do
  let (bp, found) ← prepareFinish k threadId returnAddress
  cont k
  wait k u fuel
  -- remove the breakpoint if it was set by us
  if !found then unsetBreakpoint k bp true

/-- The return address is what the stack unwinder makes of the stack. -/
def finish (fuel : Nat) (threadId : Int) (heuristic : String) (returnAddress : Option Nat) :
    Py K Unit :=
  if heuristic = "step-mode" then finishStepMode k fuel threadId
  else if heuristic = "backtrace" then
    match returnAddress with
    | some returnAddress => finishBacktrace k u fuel threadId returnAddress
    | none => raise (.valueError
        "Failed to get the return address. Check stack frame registers (e.g., base pointer).")
  else raise (.valueError s!"Unimplemented heuristic {heuristic}")

/-! ### `InternalDebugger` -/

/-- The wrapper of the methods that need a live process. -/
def ensureAlive : Py K Unit := do
  let s ← get
  match s.threads.head? with
  | none => raise .indexError
  | some thread => if thread.dead then raise (.runtimeError "All threads are dead.")

/-- The checks of `breakpoint` on a condition; an empty one counts as none. -/
def checkCondition (hardware : Bool) (condition : Option String) (length : Nat) : Py K Unit :=
  match condition with
  | none | some "" => pure ()
  | some condition =>
      if !hardware then
        raise (.valueError "Breakpoint condition is supported only for hardware watchpoints.")
      else if condition.toLower ∉ ["w", "rw", "x"] then
        raise (.valueError
          "Invalid condition for watchpoints. Supported conditions are 'w', 'rw', 'x'.")
      else if length ∉ [1, 2, 4, 8] then
        raise (.valueError
          "Invalid length for watchpoints. Supported lengths are 1, 2, 4, 8.")
      else pure ()

/-- The breakpoint should have been set by the interface. -/
def confirmInserted (address : Nat) : Py K Unit := do
  let s ← get
  if address ∉ s.breakpoints.keys then
    raise (.runtimeError "Something went wrong while inserting the breakpoint.")

def breakpoint (address : Nat) (symbol : String) (hardware : Bool) (condition : Option String)
    (length : Nat) (callback : Option Callback) : Py K Unit := do
  ensureAlive
  checkCondition hardware condition length
  let condition :=
    if hardware ∧ (condition = none ∨ condition = some "") then some "x" else condition
  let bp ← newBreakpoint { address, symbol, hardware, callback, condition, length }
  setBreakpoint k bp true
  confirmInserted address

/-- Handle a syscall, or replace the callbacks of its handler. -/
def Debugger.putHandler (s : Debugger K) (syscallNumber : Nat) (onEnter onExit : Option Callback)
    (recursive : Bool) : Debugger K :=
  if syscallNumber ∈ s.handledSyscalls.keys then
    s.updateHandler syscallNumber fun handler =>
      { handler with onEnterUser := onEnter, onExitUser := onExit, recursive, enabled := true }
  else
    let handler : SyscallHandler :=
      { syscallNumber, onEnterUser := onEnter, onExitUser := onExit, onEnterPprint := false,
        onExitPprint := false, recursive }
    { s with handledSyscalls := s.handledSyscalls.set syscallNumber handler }

def SIGKILL : Nat := 9

def checkCatchable (signalNumber : Nat) : Py K Unit :=
  if signalNumber = SIGKILL then
    raise (.valueError (s!"Cannot catch SIGKILL ({signalNumber}) as it cannot be caught or " ++
      "ignored. This is a kernel restriction."))
  else if signalNumber = SIGSTOP then
    raise (.valueError (s!"Cannot catch SIGSTOP ({signalNumber}) as it is used by the debugger " ++
      "or ptrace for their internal operations."))
  else if signalNumber = SIGTRAP then
    raise (.valueError (s!"Cannot catch SIGTRAP ({signalNumber}) as it is used by the debugger " ++
      "or ptrace for their internal operations."))
  else pure ()

def catchSignal (signalNumber : Nat) (callback : Option Callback) (recursive : Bool) :
    Py K Unit := do
  ensureAlive
  checkCatchable signalNumber
  resolveSignalName signalNumber
  let catcher : SignalCatcher := { signalNumber, callback, recursive }
  modify fun s => { s with caughtSignals := s.caughtSignals.set signalNumber catcher }

/-- `_setup_parent` without continuing to the entry point. -/
def setupParent (fuel : Nat) : Py K Unit := do
  modify fun s => { s with resumeContext := { s.resumeContext with isStartup := true } }
  wait k u fuel
  modify fun s => { s with resumeContext := { s.resumeContext with isStartup := false } }

/-! ### Sessions -/

inductive Command where
  /-- the thread that `run` or `attach` begins with -/
  | registerNewThread (threadId : Int)
  | setupParent (fuel : Nat)
  | act (action : Action)
  | breakpoint (address : Nat) (symbol : String) (hardware : Bool) (condition : Option String)
      (length : Nat) (callback : Option Callback)
  | handleSyscall (syscallNumber : Nat) (onEnter onExit : Option Callback) (recursive : Bool)
  | catchSignal (signalNumber : Nat) (callback : Option Callback) (recursive : Bool)
  /-- the user has requested an interrupt -/
  | interrupt
  | cont
  | step (threadId : Int)
  | stepUntil (fuel : Nat) (threadId : Int) (address : Nat) (maxSteps : Int)
  | finish (fuel : Nat) (threadId : Int) (heuristic : String) (returnAddress : Option Nat)
  /-- one round of the loop of `__threaded_wait` up to its decision -/
  | wait (fuel : Nat)

def Command.program : Command → Py K Unit
  | .registerNewThread threadId => Ptrace.registerNewThread k threadId
  | .setupParent fuel => Ptrace.setupParent k u fuel
  | .act action => modify (·.perform action)
  | .breakpoint address symbol hardware condition length callback =>
      Ptrace.breakpoint k address symbol hardware condition length callback
  | .handleSyscall number onEnter onExit recursive => do
      ensureAlive
      modify (·.putHandler number onEnter onExit recursive)
  | .catchSignal number callback recursive => Ptrace.catchSignal number callback recursive
  | .interrupt => modify fun s =>
      { s with resumeContext := { s.resumeContext with forceInterrupt := true } }
  | .cont => Ptrace.cont k
  | .step threadId => Ptrace.step k threadId
  | .stepUntil fuel threadId address maxSteps =>
      Ptrace.stepUntil k fuel threadId address maxSteps
  | .finish fuel threadId heuristic returnAddress =>
      Ptrace.finish k u fuel threadId heuristic returnAddress
  | .wait fuel => do
      modify (·.setResume true)
      Ptrace.wait k u fuel

/-- The state after a command, unless it crashes or hangs. -/
def Debugger.command (s : Debugger K) (command : Command) : Option (Debugger K) :=
  match (command.program k u).run s with
  | .ok _ next | .error (.raised _) next => some next
  | .error .crash _ | .error .hang _ => none

def debugging : Machine (Debugger K) Command := ⟨fun s command => s.command k u command⟩

variable {k u}

theorem Debugger.stateAfter_of_command {s next : Debugger K} {command : Command}
    (done : s.command k u command = some next) :
    stateAfter (command.program k u) s = next := by
  unfold Debugger.command at done
  unfold stateAfter
  split at done <;> simp_all

end Libdebug.Ptrace
