import Libdebug.Ptrace.HardwareBreakpoints
import Libdebug.Cffi.Wait

/-!
`PtraceInterface`: breakpoints, threads, and the methods that resume the tracee. The
methods that wait for it need the status handler and follow in `Commands`.
-/

namespace Libdebug.Ptrace

open Libdebug.Foundation Libdebug.Cffi

variable {K : Type} (k : Kernel K)

/-- Call a function of the C layer that cannot crash. -/
def callLib {α : Type} (f : GlobalState → World K → α × GlobalState × World K) : Py K α :=
  modifyGet fun s =>
    let (result, globalState, world) := f s.globalState s.world
    (result, { s with globalState, world })

/-- Call a function of the C layer that crashes where the result is `none`. -/
def callLib? (f : GlobalState → World K → Option (GlobalState × World K)) : Py K Unit := do
  let s ← get
  match f s.globalState s.world with
  | some (globalState, world) => modify fun s => { s with globalState, world }
  | none => throw .crash

/-- `raise OSError(errno_val, errno.errorcode[errno_val])`, where a call has failed -/
def raiseErrnoIf (failed : Prop) [Decidable failed] : Py K Unit := do
  let s ← get
  if failed then raise (.osError (k.errno s.world.os))

/-! ### Breakpoints -/

/-- `_set_sw_breakpoint` -/
def setSwBreakpoint (bp : Ref) : Py K Unit := do
  let s ← get
  callLib fun g w => ((), registerBreakpoint g w (s.objects bp).address)

/-- `_unset_sw_breakpoint` -/
def unsetSwBreakpoint (bp : Ref) : Py K Unit := do
  let s ← get
  callLib fun g w => ((), unregisterBreakpoint g (s.objects bp).address, w)

/-- `_enable_breakpoint` -/
def enableBreakpoint (bp : Ref) : Py K Unit := do
  let s ← get
  callLib? fun g w => Cffi.enableBreakpoint g w (s.objects bp).address

/-- `_disable_breakpoint` -/
def disableBreakpoint (bp : Ref) : Py K Unit := do
  let s ← get
  callLib? fun g w => Cffi.disableBreakpoint g w (s.objects bp).address

/-- The first half of `set_breakpoint`: debug registers or `b_HEAD`. -/
def placeBreakpoint (bp : Ref) (insert : Bool) : Py K Unit := do
  let s ← get
  if (s.objects bp).hardware then
    s.hardwareBpHelpers.keys.forM fun threadId => installBreakpoint k threadId bp
  else if insert then
    setSwBreakpoint bp
  else
    enableBreakpoint bp

def setBreakpoint (bp : Ref) (insert : Bool) : Py K Unit := do
  placeBreakpoint k bp insert
  if insert then
    modify fun s => { s with breakpoints := s.breakpoints.set (s.objects bp).address bp }

/-- The first half of `unset_breakpoint`. -/
def displaceBreakpoint (bp : Ref) (delete : Bool) : Py K Unit := do
  let s ← get
  if (s.objects bp).hardware then
    s.hardwareBpHelpers.keys.forM fun threadId => removeBreakpoint k threadId bp
  else if delete then
    unsetSwBreakpoint bp
  else
    disableBreakpoint bp

/-- `del self._internal_debugger.breakpoints[bp.address]` -/
def deleteBreakpoint (bp : Ref) : Py K Unit := do
  let s ← get
  if (s.objects bp).address ∈ s.breakpoints.keys then
    modify fun s => { s with breakpoints := s.breakpoints.erase (s.objects bp).address }
  else
    raise .keyError

def unsetBreakpoint (bp : Ref) (delete : Bool) : Py K Unit := do
  displaceBreakpoint k bp delete
  if delete then
    deleteBreakpoint bp

/-! ### Threads -/

/-- The thread context and the hardware breakpoint manager of a new thread. -/
def Debugger.insertNewThread (s : Debugger K) (threadId : Int) (registerFile : Ptr) : Debugger K :=
  { s with
    threads := s.threads ++ [{ threadId, registerFile }]
    hardwareBpHelpers := s.hardwareBpHelpers.set threadId {} }

def registerNewThread (newThreadId : Int) : Py K Unit := do
  let registerFile ← callLib fun g w =>
    let (file, g) := registerThread k g w newThreadId
    (file, g, w)
  modify (·.insertNewThread newThreadId registerFile)
  -- for any hardware breakpoints, we need to reapply them to the new thread
  let s ← get
  (s.breakpoints.values.filter fun bp => (s.objects bp).hardware).forM
    (installBreakpoint k newThreadId)

/-- `set_thread_as_dead`: the first thread context with the id, dead or not. -/
def Debugger.setThreadAsDead (s : Debugger K) (threadId : Int) (exitCode exitSignal : Option Nat) :
    Debugger K :=
  match s.threads.findIdx? fun thread => thread.threadId = threadId with
  | none => s
  | some thread => s.updateThread thread fun t => { t with dead := true, exitCode, exitSignal }

/-- `self.hardware_bp_helpers.pop(thread_id)` -/
def popHelper (threadId : Int) : Py K Unit := do
  let s ← get
  if threadId ∈ s.hardwareBpHelpers.keys then
    modify fun s => { s with hardwareBpHelpers := s.hardwareBpHelpers.erase threadId }
  else
    raise .keyError

def unregisterThread (threadId : Int) (exitCode exitSignal : Option Nat) : Py K Unit := do
  callLib fun g w => ((), Cffi.unregisterThread g threadId, w)
  modify (·.setThreadAsDead threadId exitCode exitSignal)
  popHelper threadId

/-! ### Resuming -/

/-- The body of the loop of `forward_signal`, on one node of `t_HEAD`. Where the thread
is gone on the Python side, `continue` does not advance the cursor. -/
def forwardSignalTo (node : Thread) : Py K Unit := do
  let s ← get
  if node.tid ∈ s.resumeContext.threadsWithSignalsToForward then
    match s.getThreadById node.tid with
    | none => throw .hang
    | some thread =>
        let signalNumber := s.signalNumber thread
        if signalNumber ≠ 0 ∧ signalNumber ∉ s.signalsToBlock then
          modify fun s =>
            { s.updateThread thread ({ · with signalNumber := 0 }) with
              globalState := s.globalState.forward node.regs signalNumber }

def forwardSignal : Py K Unit := do
  let s ← get
  s.globalState.tHead.forM forwardSignalTo
  modify fun s =>
    { s with resumeContext := { s.resumeContext with threadsWithSignalsToForward := [] } }

/-- Forward signals to the threads, where some have one. -/
def forwardSignals : Py K Unit := do
  let s ← get
  if s.resumeContext.threadsWithSignalsToForward ≠ [] then forwardSignal

/-- The first loop over the breakpoints in `cont`; the result is the list `changed`. -/
def collectChanged : List Ref → Py K (List Ref)
  | [] => pure []
  | bp :: rest => do
      let s ← get
      modify (·.updateBreakpoint bp ({ · with disabledForStep := false, changed := false }))
      let changed ← collectChanged rest
      pure (if (s.objects bp).changed then bp :: changed else changed)

/-- The body of the second loop over the breakpoints in `cont`. -/
def applyChange (bp : Ref) : Py K Unit := do
  let s ← get
  if (s.objects bp).enabled then setBreakpoint k bp false else unsetBreakpoint k bp false

def applyChanges : Py K Unit := do
  let s ← get
  let changed ← collectChanged s.breakpoints.values
  changed.forM (applyChange k)

def handleSyscallEnabled (handlers : List SyscallHandler) : Bool :=
  handlers.any fun handler => handler.enabled || handler.onEnterPprint || handler.onExitPprint

def cont : Py K Unit := do
  forwardSignals
  applyChanges k
  modify fun s => { s with applied := s.snapshot :: s.applied }
  modify fun s =>
    { s with globalState :=
        { s.globalState with
          handleSyscallEnabled := handleSyscallEnabled s.handledSyscalls.values } }
  let result ← callLib (contAllAndSetBps k)
  raiseErrnoIf k (result < 0)

/-- Disable all breakpoints for the single step. -/
def disableForStep : Py K Unit := do
  let s ← get
  s.breakpoints.values.forM fun bp =>
    modify (·.updateBreakpoint bp ({ · with disabledForStep := true }))

def step (threadId : Int) : Py K Unit := do
  disableForStep
  let result ← callLib fun g w => singlestep k g w threadId
  raiseErrnoIf k (result = -1)
  modify fun s => { s with resumeContext := { s.resumeContext with isAStep := true } }

/-- The result of a stepping loop of the C layer: an error number is raised, and a loop
that has not ended hangs. -/
def checkLoop (result : Option Int) : Py K Unit :=
  match result with
  | none => throw .hang
  | some result => raiseErrnoIf k (result = -1)

def stepUntil (fuel : Nat) (threadId : Int) (address : Nat) (maxSteps : Int) : Py K Unit := do
  disableForStep
  let result ← callLib fun g w => Cffi.stepUntil k fuel g w threadId address maxSteps
  checkLoop k result

end Libdebug.Ptrace
