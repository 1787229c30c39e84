import Libdebug.Ptrace.UserCode

/-!
`PtraceStatusHandler`: what is done with the statuses that `wait` collected. Every
status is a pair of a thread id and a number; its cause is known to the kernel only,
and nothing here but the history reads it.
-/

namespace Libdebug.Ptrace

open Libdebug.Foundation Libdebug.Cffi

variable {K : Type} (k : Kernel K) (u : UserCode K)

/-! ### Wait statuses -/

/-- `SIGTRAP | 0x80` -/
def syscallSigtrap : Nat := 0x80 ||| SIGTRAP

def wifstopped (status : Nat) : Bool := status % 256 = 0x7f

def wstopsig (status : Nat) : Nat := status / 256 % 256

def wifexited (status : Nat) : Bool := status % 128 = 0

def wexitstatus (status : Nat) : Nat := status / 256 % 256

def wifsignaled (status : Nat) : Bool := status % 128 ≠ 0 && status % 128 ≠ 0x7f

def wtermsig (status : Nat) : Nat := status % 128

/-- `StopEvents` -/
inductive StopEvent where
  | clone | exec | exit | fork | vfork | vforkDone | seccomp
  deriving DecidableEq, Repr

/-- `SIGTRAP | (PTRACE_EVENT_… << 8)` -/
def StopEvent.value : StopEvent → Nat
  | .fork => SIGTRAP ||| (1 <<< 8)
  | .vfork => SIGTRAP ||| (2 <<< 8)
  | .clone => SIGTRAP ||| (3 <<< 8)
  | .exec => SIGTRAP ||| (4 <<< 8)
  | .vforkDone => SIGTRAP ||| (5 <<< 8)
  | .exit => SIGTRAP ||| (6 <<< 8)
  | .seccomp => SIGTRAP ||| (7 <<< 8)

/-- `software_breakpoint_byte_size()`, the same for `amd64` and `x86`. -/
def softwareBreakpointByteSize : Nat := 1

/-- The names that the `signal` module has for signals: 1 to 31 and two real-time ones. -/
def hasSignalName (number : Nat) : Bool :=
  (1 ≤ number && number ≤ 31) || number = 34 || number = 64

/-- `resolve_signal_name`, evaluated for a log message. -/
def resolveSignalName (number : Nat) : Py K Unit :=
  if hasSignalName number then pure ()
  else raise (.valueError s!"Signal {number} not found.")

/-! ### Threads -/

/-- `os.waitpid(thread_id, 0)` -/
def osWaitpid (threadId : Int) : Py K Unit := do
  let result ← callLib fun g w =>
    let (result, w) := w.waitpid k .handleClone (.thread threadId) false
    (result, g, w)
  raiseErrnoIf k (result = none)

/-- Wait for the `SIGSTOP` of the new thread, unless it is among the results. -/
def awaitNewThread (threadId : Int) (results : List ThreadStatus) : Py K Unit :=
  if results.any fun st => st.tid = threadId && st.status = 4991 then pure ()
  else osWaitpid k threadId

def handleClone (threadId : Int) (results : List ThreadStatus) : Py K Unit := do
  awaitNewThread k threadId results
  registerNewThread k threadId

def handleExit (threadId : Int) (exitCode exitSignal : Option Nat) : Py K Unit := do
  let thread ← getThreadById threadId
  if thread.isSome then unregisterThread threadId exitCode exitSignal

/-! ### Breakpoints -/

/-- The breakpoint at an address, if it counts as hit there. -/
def Debugger.activeBreakpoint (s : Debugger K) (address : Nat) : Option Ref :=
  (s.breakpoints.get? address).filter fun bp =>
    (s.objects bp).enabled && !(s.objects bp).disabledForStep

/-- The address in front of the trap instruction that ends at `ip`. -/
def beforeTrap (ip : Nat) : Option Nat :=
  if softwareBreakpointByteSize ≤ ip then some (ip - softwareBreakpointByteSize) else none

/-- The breakpoint that a `SIGTRAP` at `ip` is put down to: the one at `ip`, else the
one in front of it, where the instruction pointer is set back, else a watchpoint. -/
def findHit (threadId : Int) (thread : ThreadContext) (ip : Nat) : Py K (Option Ref) := do
  let s ← get
  match s.activeBreakpoint ip with
  -- hardware breakpoint hit
  | some bp => pure (some bp)
  | none =>
      match (beforeTrap ip).bind s.activeBreakpoint with
      -- software breakpoint hit
      | some bp => do
          modify fun s =>
            (s.writeReg thread.registerFile .rip (ip - softwareBreakpointByteSize)).updateBreakpoint
              bp fun b => { b with linkedThreadIds := b.linkedThreadIds ++ [threadId] }
          pure (some bp)
      | none => isWatchpointHit k threadId

/-- Count a hit and call the callback; without one the process stops. -/
def creditHit (threadId : Int) (bp : Ref) : Py K Unit := do
  modify fun s =>
    (s.setForwardSignal false).updateBreakpoint bp fun b => { b with hitCount := b.hitCount + 1 }
  let s ← get
  match (s.objects bp).callback with
  | some callback => runCallback u (.breakpoint (s.objects bp).address) callback threadId
  | none => modify (·.setResume false)

def handleBreakpoints (threadId : Int) : Py K Unit := do
  let s ← get
  match (s.getThreadById threadId).bind (s.threads[·]?) with
  | none =>
      -- a signal trap hit on process startup
      modify fun s => (s.setResume false).setForwardSignal false
  | some thread =>
      let hit ← findHit k threadId thread (s.readReg thread .rip)
      match hit with
      | some bp => creditHit u threadId bp
      | none => pure ()

/-! ### System calls -/

/-- `thread.syscall_number` -/
def Debugger.syscallNumber (s : Debugger K) (thread : ThreadContext) : Nat :=
  s.readReg thread .origRax

def setHasEntered (syscallNumber : Nat) : Py K Unit :=
  modify (·.updateHandler syscallNumber ({ · with hasEntered := true }))

/-- Skip the exit callback of the system call that has been hijacked to. -/
def skipHijacked (syscallNumber : Nat) : Py K Unit :=
  modify (·.updateHandler syscallNumber ({ · with hasEntered := true, skipExit := true }))

/-- Call `on_enter_user`, and deal with the handler of another system call if the
callback changed the number. -/
def callOnEnter (thread : ThreadContext) (syscallNumber : Nat) (handler : SyscallHandler)
    (callback : Callback) (hijackedSet : List Nat) (recurse : Nat → List Nat → Py K Unit) :
    Py K Unit := do
  runCallback u (.onEnter syscallNumber) callback thread.threadId
  let s ← get
  let after := s.syscallNumber thread
  if after = syscallNumber then
    setHasEntered syscallNumber
  else if after ∉ s.handledSyscalls.keys then
    pure ()
  else if !handler.recursive then
    skipHijacked after
  else if after ∈ hijackedSet then
    raise
      (.runtimeError "Syscall hijacking loop detected. Check your code to avoid infinite loops.")
  else
    recurse after (after :: hijackedSet)

/-- The branches of `_manage_syscall_on_enter` on the callbacks of the handler. -/
def enterHandler (thread : ThreadContext) (syscallNumber : Nat) (handler : SyscallHandler)
    (hijackedSet : List Nat) (recurse : Nat → List Nat → Py K Unit) : Py K Unit :=
  match handler.onEnterUser, handler.enabled with
  | some callback, true => callOnEnter u thread syscallNumber handler callback hijackedSet recurse
  | _, _ =>
      if handler.onEnterPprint || handler.onExitPprint || handler.onExitUser.isSome then
        setHasEntered syscallNumber
      else
        pure ()

/-- Without any callback the process stops. -/
def Debugger.stopsOn (s : Debugger K) (syscallNumber : Nat) : Bool :=
  match s.handledSyscalls.get? syscallNumber with
  | none => false
  | some handler => handler.onEnterUser = none && handler.onExitUser = none && handler.enabled

/-- Each recursive call adds a handled number to the set. -/
def manageSyscallOnEnter (thread : ThreadContext) : Nat → Nat → List Nat → Py K Unit
  | 0, _, _ => throw .hang
  | fuel + 1, syscallNumber, hijackedSet => do
      let s ← get
      match s.handledSyscalls.get? syscallNumber with
      | none => pure ()
      | some handler => do
          enterHandler u thread syscallNumber handler hijackedSet
            (manageSyscallOnEnter thread fuel)
          let s ← get
          if s.stopsOn syscallNumber then do
            setHasEntered syscallNumber
            modify (·.setResume false)

/-- The call of `on_exit_user`. -/
def callOnExit (thread : ThreadContext) (syscallNumber : Nat) (handler : SyscallHandler) :
    Py K Unit :=
  match handler.onExitUser, handler.enabled && !handler.skipExit with
  | some callback, true => runCallback u (.onExit syscallNumber) callback thread.threadId
  | _, _ => pure ()

/-- The branch of `_handle_syscall` for a system call that is being exited. -/
def exitHandler (thread : ThreadContext) (syscallNumber : Nat) (handler : SyscallHandler) :
    Py K Unit := do
  modify (·.updateHandler syscallNumber fun h =>
    -- count only if the syscall has been handled
    if h.enabled && !h.skipExit then { h with hitCount := h.hitCount + 1 } else h)
  callOnExit u thread syscallNumber handler
  modify (·.updateHandler syscallNumber ({ · with hasEntered := false, skipExit := false }))
  let s ← get
  if s.stopsOn syscallNumber then
    modify (·.setResume false)

def handleSyscall (threadId : Int) : Py K Unit := do
  let s ← get
  match (s.getThreadById threadId).bind (s.threads[·]?) with
  -- another spurious trap
  | none => pure ()
  | some thread =>
      let syscallNumber := s.syscallNumber thread
      match s.handledSyscalls.get? syscallNumber with
      -- a syscall we don't care about
      | none => pure ()
      | some handler =>
          if handler.hasEntered then exitHandler u thread syscallNumber handler
          else
            manageSyscallOnEnter u thread (s.handledSyscalls.keys.length + 1) syscallNumber
              [syscallNumber]

/-! ### Signals -/

/-- What follows the callback of a catcher: if it changed the signal, the catcher of the
new one may have its turn. -/
def afterCatcher (thread : Nat) (catcher : SignalCatcher) (signalNumber : Nat)
    (hijackedSet : List Nat) (recurse : Nat → List Nat → Py K Unit) : Py K Unit := do
  let s ← get
  let newSignalNumber := s.signalNumber thread
  if newSignalNumber = signalNumber then
    pure ()
  else do
    resolveSignalName signalNumber
    resolveSignalName newSignalNumber
    if !catcher.recursive || newSignalNumber ∉ s.caughtSignals.keys then
      pure ()
    else if newSignalNumber ∈ hijackedSet then
      raise (.runtimeError
        "Signal hijacking loop detected. Check your script to avoid infinite loops.")
    else
      recurse newSignalNumber (newSignalNumber :: hijackedSet)

/-- Each recursive call adds a caught number to the set. -/
def manageCaughtSignal (thread : Nat) (threadId : Int) : Nat → Nat → List Nat → Py K Unit
  | 0, _, _ => throw .hang
  | fuel + 1, signalNumber, hijackedSet => do
      let s ← get
      match s.caughtSignals.get? signalNumber with
      | none => pure ()
      | some catcher =>
          if !catcher.enabled then
            pure ()
          else do
            modify (·.updateCatcher signalNumber fun c => { c with hitCount := c.hitCount + 1 })
            resolveSignalName signalNumber
            match catcher.callback with
            | none => modify (·.setResume false)
            | some callback => do
                runCallback u (.signal signalNumber) callback threadId
                afterCatcher thread catcher signalNumber hijackedSet
                  (manageCaughtSignal thread threadId fuel)

def handleSignal (thread : Nat) (threadId : Int) : Py K Unit := do
  let s ← get
  manageCaughtSignal u thread threadId (s.caughtSignals.keys.length + 1) (s.signalNumber thread)
    [s.signalNumber thread]

/-! ### One status, and the list of them -/

/-- The `match` on the event of a `SIGTRAP`. The other events are not told apart. -/
def handleEvent (pid : Int) (event : Nat) (results : List ThreadStatus) : Py K Unit :=
  if event = StopEvent.clone.value then do
    let s ← get
    handleClone k (k.geteventmsg s.world.os pid) results
    modify (·.setForwardSignal false)
  else if event = StopEvent.seccomp.value ∨ event = StopEvent.exit.value ∨
      event = StopEvent.fork.value then
    modify (·.setForwardSignal false)
  else
    pure ()

/-- The process is stepping, we need to stop the execution. -/
def finishStep : Py K Unit :=
  modify fun s =>
    if s.resumeContext.isAStep then
      { s with
        resumeContext := { s.resumeContext with resume := false, isAStep := false }
        forwardSignal := false }
    else s

def internalSignalHandler (pid : Int) (signum : Nat) (results : List ThreadStatus) (status : Nat) :
    Py K Unit := do
  let s ← get
  if signum = syscallSigtrap then do
    handleSyscall u pid
    modify (·.setForwardSignal false)
  else if signum = SIGSTOP ∧ s.resumeContext.forceInterrupt then
    -- the user has requested an interrupt
    modify fun s =>
      { s with
        resumeContext := { s.resumeContext with resume := false, forceInterrupt := false }
        forwardSignal := false }
  else if signum = SIGTRAP then do
    handleBreakpoints k u pid
    finishStep
    handleEvent k pid (status / 256) results
  else
    pure ()

/-- We have to forward the signal to the thread. -/
def appendSignalToForward (pid : Int) (signum : Nat) : Py K Unit :=
  modify fun s =>
    if s.forwardSignal ∧ signum ≠ SIGSTOP then
      { s with resumeContext :=
          { s.resumeContext with
            threadsWithSignalsToForward :=
              s.resumeContext.threadsWithSignalsToForward ++ [pid] } }
    else s

/-- The thread has stopped with a signal; the delivery of one chooses it. -/
def Debugger.receive (s : Debugger K) (st : ThreadStatus) (thread : Nat) (signum : Nat) :
    Debugger K :=
  { s.updateThread thread ({ · with signalNumber := signum }) with
    world := if st.cause = .delivery then s.world.record (.chose st.tid signum) else s.world }

/-- What `_handle_change` does with the signal of a thread that has stopped. -/
def handleStop (st : ThreadStatus) (signum : Nat) : Py K Unit := do
  let thread ← getThreadById st.tid
  match thread with
  | none => pure ()
  | some thread => do
      modify (·.receive st thread signum)
      handleSignal u thread st.tid
      appendSignalToForward st.tid signum

def handleChange (st : ThreadStatus) (results : List ThreadStatus) : Py K Unit := do
  modify (·.setForwardSignal true)
  let s ← get
  if wifstopped st.status then
    if s.resumeContext.isStartup then
      -- the process has just started
      pure ()
    else do
      internalSignalHandler k u st.tid (wstopsig st.status) results st.status
      handleStop u st (wstopsig st.status)
  else if wifexited st.status then
    handleExit st.tid (some (wexitstatus st.status)) none
  else if wifsignaled st.status then
    handleExit st.tid none (some (wtermsig st.status))
  else
    pure ()

def manageChange (results : List ThreadStatus) : Py K Unit :=
  -- an id of -1 is a spurious trap
  (results.filter (·.tid ≠ -1)).forM fun st => handleChange k u st results

end Libdebug.Ptrace
