import Libdebug.Foundation.Dict
import Libdebug.InternalDebugger.CommandQueue
import Libdebug.Ptrace.State
import Libdebug.Utils.PipeManager

/-!
The life of a debugged process as `InternalDebugger` sees it: `run`, `kill` and what may come
between them, with the parent's ends of the three pipes.

The main thread calls the methods. A command it queues is executed when it next joins the
queue, or before it looks at the shared fields if the polling thread is that far. How a
command ends is the business of the tracee and of the functions of the user, and is answered
from outside: with the process alive or not, by an exception or not, or never.
-/

namespace Libdebug.InternalDebugger.Lifecycle

open Libdebug.Foundation Libdebug.Ptrace Libdebug.Utils

/-- What becomes of the process while a command collects statuses. -/
inductive Fate where
  | survives
  /-- its exit is collected -/
  | exits
  /-- its exit is collected, and its first thread marked dead -/
  | exitHandled
  deriving DecidableEq, Repr

structure Ending where
  fate : Fate
  raised : Option PyError
  deriving DecidableEq, Repr

/-- What the world answers to a call. -/
structure Answers where
  /-- how many looks the main thread takes before the polling thread gets on -/
  lag : Nat
  /-- how the commands end; `none` is a command that does not -/
  endings : List (Option Ending)
  /-- the process is gone when a signal is sent to it, though its exit is not yet handled -/
  gone : Bool
  /-- `Path(argv[0]).is_file()` -/
  isFile : Bool
  /-- `os.access(argv[0], os.X_OK)` -/
  isExecutable : Bool
  /-- the file descriptors for the new pipes -/
  fds : PipeManager
  /-- the child process is not spawned -/
  unspawned : Option PyError
  /-- the thread of a method is dead -/
  threadDead : Bool
  /-- the arguments of a method are refused -/
  refused : Option PyError
  /-- the system call has a handler already -/
  handled : Bool

inductive Process where
  | none
  | alive
  | zombie
  | reaped
  deriving DecidableEq, Repr

/-- There may be no process to wait for. -/
def Process.reap : Process → Process
  | .none => .none
  | .alive | .zombie | .reaped => .reaped

/-- The parent's ends of the three pipes. -/
inductive PipeEnd where
  | stdinWrite
  | stdoutRead
  | stderrRead
  deriving DecidableEq, Repr

/-- Whose an open file descriptor is. -/
inductive Owner where
  | pipe (run : Nat) (pipeEnd : PipeEnd)
  | foreign
  deriving DecidableEq, Repr

/-- The pipe manager of a run -/
structure Pipes where
  run : Nat
  manager : PipeManager

structure Parent where
  instanced : Bool
  isRunning : Bool
  /-- `threads[0].dead`, if there is a thread -/
  leader : Option Bool
  pipeManager : Option Pipes
  detached : Bool
  /-- the process was spawned by a run -/
  launched : Bool
  process : Process
  commands : List Command
  /-- an exception in the response queue -/
  response : Option PyError
  descriptors : Dict Nat Owner
  /-- how many runs have opened pipes -/
  runs : Nat
  /-- the calls of `os.close` on ends of pipes -/
  closings : List (Nat × PipeEnd)
  answers : Answers

abbrev Life := EStateM Abort Parent

structure Setup extends Config where
  argv : Option String
  /-- the class of an exception of the user derives from `OSError` or `RuntimeError` -/
  derives : Nat → Bool

/-! ### The polling thread -/

namespace Parent

variable (s : Parent)

def setRunning : Parent := { s with isRunning := true }

def setStopped : Parent := { s with isRunning := false }

def respond (error : PyError) : Parent := { s with response := some error }

def suffer : Fate → Parent
  | .survives => s
  | .exits => { s with process := s.process.reap }
  | .exitHandled => { s with process := s.process.reap, leader := s.leader.map fun _ => true }

/-- A command ends as the world answers. -/
def ended (returned : Ending → Parent → Parent) : Option Parent :=
  match s.answers.endings with
  | some ending :: rest =>
      let t := { s with answers := { s.answers with endings := rest } }
      some (match ending.raised with
        | none => returned ending t
        | some error => t.respond error)
  | _ => none

/-- A command that collects statuses -/
def collects (returned : Parent → Parent) : Option Parent :=
  match s.answers.endings with
  | some ending :: rest =>
      let t := { s with answers := { s.answers with endings := rest } }.suffer ending.fate
      some (match ending.raised with
        | none => returned t
        | some error => t.respond error)
  | _ => none

/-- The descriptors the kernel gives out are distinct and free. -/
def grants (fds : PipeManager) : Bool :=
  [fds.stdinWrite, fds.stdoutRead, fds.stderrRead].Nodup &&
    [fds.stdinWrite, fds.stdoutRead, fds.stderrRead].all fun fd => fd ∉ s.descriptors.keys

/-- `os.pipe()` and `pty.openpty()`, the ends of the child left aside -/
def openPipes (fds : PipeManager) : Parent :=
  { s with
    descriptors :=
      ((s.descriptors.set fds.stdinWrite (.pipe s.runs .stdinWrite)).set fds.stdoutRead
        (.pipe s.runs .stdoutRead)).set fds.stderrRead (.pipe s.runs .stderrRead)
    runs := s.runs + 1 }

/-- The child process is there: its first thread is registered. -/
def spawn : Parent :=
  { s with process := .alive, launched := true, detached := false, leader := some false }

/-- `PtraceInterface.run`, with `set_stopped` -/
def launch : Option Parent :=
  if s.grants s.answers.fds then
    let opened := s.openPipes s.answers.fds
    match s.answers.unspawned with
    | some error => some (opened.respond error)
    | none => opened.spawn.collects fun t =>
        { t.setStopped with pipeManager := some ⟨s.runs, s.answers.fds⟩ }
  else some (s.respond (.osError 24))

/-- `PtraceInterface.attach`, with `set_stopped` -/
def attachProcess : Option Parent :=
  s.ended fun ending t =>
    ({ t with process := .alive, launched := false, detached := false, leader := some false }.suffer
      ending.fate).setStopped

/-- `PtraceInterface.kill`. A process that the debugger has detached from is killed as any
other: that fails if there is none, and only a child of the debugger can be waited for. -/
def killProcess : Parent :=
  match s.detached, s.process with
  | false, process => { s with process := process.reap }
  | true, .none | true, .reaped => s.respond (.osError 3)
  | true, .alive | true, .zombie =>
      if s.launched then { s with process := .reaped }
      else ({ s with process := .zombie } : Parent).respond (.osError 10)

/-- `__threaded_wait` returns at once if the first thread is dead. -/
def waitProcess : Option Parent :=
  match s.leader with
  | none => some (s.respond .indexError)
  | some true => some s.setStopped
  | some false => s.collects setStopped

/-- The polling thread executes a command. -/
def execute : Command → Option Parent
  | .run => s.launch
  | .attach => s.attachProcess
  | .detach => s.ended fun _ t => { t.setStopped with detached := true }
  | .kill => some s.killProcess
  | .cont => s.setRunning.ended fun _ t => t
  | .wait => s.waitProcess
  | .step => s.ended fun _ t => t.setRunning
  | .stepUntil | .finish => s.collects setStopped
  | .breakpoint | .catchSignal | .handleSyscall | .unhandleSyscall | .peekMemory | .pokeMemory =>
      s.ended fun _ t => t
  | .gdb | .migrateFromGdb | .terminate => none

/-- The polling thread executes the commands in their order, as far as they end and their
exceptions are read. -/
def progress : List Command → Parent → Parent
  | [], s => { s with commands := [] }
  | command :: rest, s =>
      match s.response, s.execute command with
      | none, some t => progress rest t
      | _, _ => { s with commands := command :: rest }

end Parent

/-! ### The main thread -/

def raise (error : PyError) : Life Unit := throw (.raised error)

def put (command : Command) : Life Unit :=
  modify fun s => { s with commands := s.commands ++ [command] }

/-- `command_queue.join()` -/
def join : Life Unit := fun s =>
  let t := s.progress s.commands
  if t.commands = [] then .ok () t else .error .hang t

def joinAndCheckStatus : Life Unit := do
  join
  match (← get).response with
  | none => pure ()
  | some error =>
      modify ({ · with response := none })
      raise error

/-- The main thread looks at the fields it shares with the polling thread. -/
def look : Life Parent := do
  modify fun s =>
    match s.answers.lag with
    | 0 => s.progress s.commands
    | lag + 1 => { s with answers := { s.answers with lag } }
  get

/-- `self.threads[0].dead` -/
def firstThreadDead : Life Bool := do
  match (← look).leader with
  | none => throw (.raised .indexError)
  | some dead => pure dead

def checkInstanced (message : String) : Life Unit := do
  if !(← get).instanced then raise (.runtimeError message)

def wait : Life Unit := do
  checkInstanced "Process not running, cannot wait."
  joinAndCheckStatus
  let dead ← firstThreadDead
  if dead || !(← look).isRunning then pure ()
  else
    put .wait
    joinAndCheckStatus

/-- `os.kill(self.process_id, SIGSTOP)` -/
def signal : Life Unit := do
  let s ← get
  if s.answers.gone || s.process = .reaped || s.process = .none then raise (.osError 3)

def interrupt : Life Unit := do
  checkInstanced "Process not running, cannot interrupt."
  if ← firstThreadDead then raise (.runtimeError "All threads are dead.")
  if !(← look).isRunning then pure ()
  else
    signal
    wait

variable (setup : Setup)

/-- `_ensure_process_stopped` -/
def ensureProcessStopped : Life Unit := do
  if !(← look).isRunning then pure ()
  else
    if setup.autoInterruptOnCommand then interrupt
    joinAndCheckStatus

/-- `except (OSError, RuntimeError)` -/
def Setup.catches : PyError → Bool
  | .osError _ | .runtimeError _ => true
  | .user error => setup.derives error
  | .valueError _ | .keyError | .indexError | .stopIteration => false

def catching (p : Life Unit) : Life Unit := fun s =>
  match p s with
  | .error (.raised error) t => if setup.catches error then .ok () t else .error (.raised error) t
  | ended => ended

/-- `os.close` -/
def osClose (run : Nat) (pipeEnd : PipeEnd) (fd : Nat) : Life Unit := do
  modify fun s => { s with closings := (run, pipeEnd) :: s.closings }
  let s ← get
  if s.descriptors.get? fd = none then raise (.osError 9)
  else modify fun s => { s with descriptors := s.descriptors.erase fd }

/-- `PipeManager.close` -/
def Pipes.close (pipes : Pipes) : Life Unit := do
  osClose pipes.run .stdinWrite pipes.manager.stdinWrite
  osClose pipes.run .stdoutRead pipes.manager.stdoutRead
  osClose pipes.run .stderrRead pipes.manager.stderrRead

/-- What `kill` does once the process is stopped, or cannot be -/
def killStopped : Life Unit := do
  put .kill
  modify ({ · with instanced := false })
  match (← get).pipeManager with
  | none => pure ()
  | some pipes => pipes.close
  joinAndCheckStatus

def kill : Life Unit := do
  catching setup (ensureProcessStopped setup)
  killStopped

/-- `clear`, and `reset` of the interface -/
def clear : Life Unit :=
  modify fun s => { s with
    pipeManager := none
    process := .none
    leader := none
    instanced := false
    isRunning := false }

/-- Stop what is running and clear what is left of it. -/
def restart : Life Unit := do
  if (← get).instanced then kill setup
  if (← get).leader.isSome then clear
  modify ({ · with instanced := true })
  if (← look).commands ≠ [] then
    raise (.runtimeError "Polling thread command queue not empty.")

def checkBinary : Life Unit := do
  let s ← get
  match setup.argv with
  | none => raise (.runtimeError "No binary file specified.")
  | some path =>
      if !s.answers.isFile then raise (.runtimeError s!"File {path} does not exist.")
      if !s.answers.isExecutable then raise (.runtimeError s!"File {path} is not executable.")

def run : Life Unit := do
  checkBinary setup
  restart setup
  put .run
  if setup.escapeAntidebug then put .handleSyscall
  joinAndCheckStatus
  if (← get).pipeManager.isNone then
    raise (.runtimeError "Something went wrong during pipe initialization.")

def attach : Life Unit := do
  restart setup
  put .attach
  joinAndCheckStatus

def detach : Life Unit := do
  checkInstanced "Process not running, cannot detach."
  ensureProcessStopped setup
  put .detach
  joinAndCheckStatus

/-- A method that refuses some arguments -/
def refusing (body : Life Unit) : Life Unit := do
  match (← get).answers.refused with
  | none => body
  | some error => raise error

def changeStateFunctionProcess (body : Life Unit) : Life Unit := do
  checkInstanced "Process not running. Did you call run()?"
  ensureProcessStopped setup
  if ← firstThreadDead then raise (.runtimeError "All threads are dead.")
  else refusing body

def changeStateFunctionThread (body : Life Unit) : Life Unit := do
  checkInstanced "Process not running. Did you call run()?"
  ensureProcessStopped setup
  if (← get).answers.threadDead then raise (.runtimeError "The threads is dead.")
  else refusing body

def cont : Life Unit :=
  changeStateFunctionProcess setup do
    put .cont
    joinAndCheckStatus
    put .wait

def step : Life Unit :=
  changeStateFunctionThread setup do
    ensureProcessStopped setup
    put .step
    put .wait
    joinAndCheckStatus

/-- A method that queues one command and joins the queue -/
def command (command : Command) : Life Unit := do
  put command
  joinAndCheckStatus

/-- `handle_syscall` and `hijack_syscall`: a handler there is already is changed in place. -/
def handleSyscall : Life Unit :=
  changeStateFunctionProcess setup do
    if (← get).answers.handled then pure ()
    else command .handleSyscall

def putEach (queued : Command) : Nat → Life Unit
  | 0 => pure ()
  | handlers + 1 => do
      put queued
      putEach queued handlers

/-- `enable_pretty_print` and `disable_pretty_print`, with the number of handlers they come to -/
def prettyPrint (queued : Command) (handlers : Nat) : Life Unit := do
  ensureProcessStopped setup
  putEach queued handlers
  joinAndCheckStatus

/-- `_peek_memory` and `_poke_memory` -/
def accessMemory (access : Command) : Life Unit := do
  checkInstanced "Process not running, cannot step."
  ensureProcessStopped setup
  command access

/-- The public methods; no method may be called after `terminate`, and what becomes of a process
in the hands of GDB is left aside. -/
def body : Call → Option (Life Unit)
  | .run => some (run setup)
  | .attach => some (attach setup)
  | .detach => some (detach setup)
  | .kill => some (kill setup)
  | .terminate | .gdb => none
  | .cont => some (cont setup)
  | .interrupt => some interrupt
  | .wait => some wait
  | .breakpoint => some (changeStateFunctionProcess setup (command .breakpoint))
  | .catchSignal => some (changeStateFunctionProcess setup (command .catchSignal))
  | .hijackSignal =>
      some (changeStateFunctionProcess setup
        (changeStateFunctionProcess setup (command .catchSignal)))
  | .handleSyscall | .hijackSyscall => some (handleSyscall setup)
  | .enablePrettyPrint handlers => some (prettyPrint setup .handleSyscall handlers)
  | .disablePrettyPrint handlers => some (prettyPrint setup .unhandleSyscall handlers)
  | .step => some (step setup)
  | .stepUntil => some (changeStateFunctionThread setup (command .stepUntil))
  | .finish => some (changeStateFunctionThread setup (command .finish))
  | .peekMemory => some (accessMemory setup .peekMemory)
  | .pokeMemory => some (accessMemory setup .pokeMemory)

/-! ### Runs -/

def noAnswers : Answers where
  lag := 0
  endings := []
  gone := false
  isFile := false
  isExecutable := false
  fds := ⟨0, 0, 0⟩
  unspawned := none
  threadDead := false
  refused := none
  handled := false

/-- After `start_up` -/
def Parent.initial : Parent where
  instanced := false
  isRunning := false
  leader := none
  pipeManager := none
  detached := false
  launched := false
  process := .none
  commands := []
  response := none
  descriptors := .empty
  runs := 0
  closings := []
  answers := noAnswers

inductive Happening where
  | call (call : Call) (answers : Answers)
  /-- the rest of the program opens a file -/
  | opens (fd : Nat)
  /-- the rest of the program closes one of its files -/
  | closes (fd : Nat)
  /-- the process exits while nobody waits for it -/
  | exits

/-- A method that returns or raises -/
def Parent.ends (s : Parent) (p : Life Unit) (answers : Answers) : Option Parent :=
  match p.run { s with answers } with
  | .ok _ t | .error (.raised _) t => some t
  | .error .crash _ | .error .hang _ => none

def Parent.happen (s : Parent) : Happening → Option Parent
  | .call call answers => (body setup call).bind fun p => s.ends p answers
  | .opens fd =>
      if fd ∈ s.descriptors.keys then none
      else some { s with descriptors := s.descriptors.set fd .foreign }
  | .closes fd =>
      if s.descriptors.get? fd = some .foreign then
        some { s with descriptors := s.descriptors.erase fd }
      else none
  | .exits => if s.process = .alive then some { s with process := .zombie } else none

def lifecycle : Machine Parent Happening := ⟨fun s happening => s.happen setup happening⟩

end Libdebug.InternalDebugger.Lifecycle
