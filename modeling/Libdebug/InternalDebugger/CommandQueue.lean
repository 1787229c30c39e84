import Libdebug.Foundation.TaskQueue
import Libdebug.Foundation.Runs

/-!
The main thread and the polling thread of `InternalDebugger`, and the two queues
between them.

The polling thread takes a command, executes it, puts what it answers (a value or an
exception) in the response queue, reports the command done and joins the response
queue. A public method is the program of what it does to the queues; what it reads
elsewhere (whether a thread is dead, whether an address resolves) is left to chance.
The steps of the two threads interleave freely.
-/

namespace Libdebug.InternalDebugger

open Libdebug.Foundation

/-- The methods the polling thread executes. -/
inductive Command where
  | run | attach | detach | kill | cont | wait | breakpoint | catchSignal | handleSyscall
  | unhandleSyscall | step | stepUntil | finish | gdb | migrateFromGdb | peekMemory | pokeMemory
  /-- `THREAD_TERMINATE` -/
  | terminate
  deriving DecidableEq, Repr

inductive Response where
  | value
  | exception
  deriving DecidableEq, Repr

/-! ### Programs of the main thread -/

/-- What a public method does to the queues and to the fields it shares. -/
inductive Program where
  /-- return, or raise -/
  | done
  | put (command : Command) (next : Program)
  /-- `command_queue.join()` -/
  | join (next : Program)
  /-- look into the response queue, and raise what is there -/
  | checkStatus (raised next : Program)
  /-- `response_queue.get()` -/
  | getResponse (next : Program)
  | ifRunning (yes no : Program)
  | ifInstanced (yes no : Program)
  | ifQueueEmpty (yes no : Program)
  /-- `polling_thread is not None` -/
  | ifPolling (yes no : Program)
  | setInstanced (instanced : Bool) (next : Program)
  | clear (next : Program)
  /-- put `THREAD_TERMINATE` and join the thread -/
  | terminate (next : Program)
  /-- decided elsewhere -/
  | either (first second : Program)

structure Config where
  autoInterruptOnCommand : Bool
  escapeAntidebug : Bool

namespace Program

/-- `_join_and_check_status` -/
def joinAndCheckStatus (raised next : Program) : Program := .join (.checkStatus raised next)

/-- `self.threads[0].dead`; there may be no thread. -/
def ifFirstThreadDead (raised yes no : Program) : Program := .either raised (.either yes no)

def wait (raised next : Program) : Program :=
  .ifInstanced
    (joinAndCheckStatus raised
      (ifFirstThreadDead raised next
        (.ifRunning (.put .wait (joinAndCheckStatus raised next)) next)))
    raised

/-- Signalling the process may fail. -/
def interrupt (raised next : Program) : Program :=
  .ifInstanced
    (ifFirstThreadDead raised raised (.ifRunning (.either raised (wait raised next)) next))
    raised

variable (config : Config)

/-- `_ensure_process_stopped` -/
def ensureProcessStopped (raised next : Program) : Program :=
  .ifRunning
    (if config.autoInterruptOnCommand then interrupt raised (joinAndCheckStatus raised next)
      else joinAndCheckStatus raised next)
    next

def changeStateFunctionProcess (body : Program) : Program :=
  .ifInstanced (ensureProcessStopped config .done (ifFirstThreadDead .done .done body)) .done

def changeStateFunctionThread (body : Program) : Program :=
  .ifInstanced (ensureProcessStopped config .done (.either .done body)) .done

/-- What `kill` does when the process is stopped; closing the pipes may fail. -/
def killStopped (raised next : Program) : Program :=
  .put .kill (.setInstanced false (.either raised (joinAndCheckStatus raised next)))

/-- An `OSError` or a `RuntimeError` of the check is swallowed. -/
def kill (raised next : Program) : Program :=
  ensureProcessStopped config (.either (killStopped raised next) raised) (killStopped raised next)

/-- Stop what is running and clear what is left of it. -/
def restart (next : Program) : Program :=
  .ifInstanced (kill config .done (.either (.clear next) next)) (.either (.clear next) next)

/-- `_enable_antidebug_escaping` -/
def enableAntidebugEscaping (next : Program) : Program :=
  if config.escapeAntidebug then .put .handleSyscall next else next

/-- There may be no such binary. -/
def run : Program :=
  .either .done
    (restart config
      (.setInstanced true
        (.ifQueueEmpty
          (.put .run (enableAntidebugEscaping config (joinAndCheckStatus .done .done)))
          .done)))

def attach : Program :=
  restart config
    (.setInstanced true (.ifQueueEmpty (.put .attach (joinAndCheckStatus .done .done)) .done))

def detach : Program :=
  .ifInstanced (ensureProcessStopped config .done (.put .detach (joinAndCheckStatus .done .done)))
    .done

/-- `terminate` -/
def terminateThread : Program := .ifPolling (.terminate .done) .done

def cont : Program :=
  changeStateFunctionProcess config
    (.put .cont (joinAndCheckStatus .done (.put .wait .done)))

/-- The arguments may be wrong. -/
def breakpoint : Program :=
  changeStateFunctionProcess config
    (.either .done (.put .breakpoint (joinAndCheckStatus .done .done)))

/-- The signal may be one that cannot be caught. -/
def catchSignal : Program :=
  changeStateFunctionProcess config
    (.either .done (.put .catchSignal (joinAndCheckStatus .done .done)))

/-- The two signals may be the same one; `catch_signal` is a public method as well. -/
def hijackSignal : Program :=
  changeStateFunctionProcess config (.either .done (catchSignal config))

/-- The arguments may be wrong, and a handler there is already is changed in place. -/
def handleSyscall : Program :=
  changeStateFunctionProcess config
    (.either .done (.put .handleSyscall (joinAndCheckStatus .done .done)))

/-- As `handle_syscall`, with a handler that hijacks -/
def hijackSyscall : Program :=
  changeStateFunctionProcess config
    (.either .done (.put .handleSyscall (joinAndCheckStatus .done .done)))

/-- Opening GDB may fail. -/
def gdb : Program :=
  changeStateFunctionProcess config
    (interrupt .done
      (.put .gdb
        (joinAndCheckStatus .done
          (.either .done (.put .migrateFromGdb (joinAndCheckStatus .done .done))))))

/-- One command after the other, for each of the handlers that a loop comes to -/
def putEach (command : Command) (next : Program) : Nat → Program
  | 0 => next
  | handlers + 1 => .put command (putEach command next handlers)

/-- `enable_pretty_print`; so many system calls have no handler yet. -/
def enablePrettyPrint (handlers : Nat) : Program :=
  ensureProcessStopped config .done
    (putEach .handleSyscall (joinAndCheckStatus .done .done) handlers)

/-- `disable_pretty_print`; so many handlers are there for nothing else. -/
def disablePrettyPrint (handlers : Nat) : Program :=
  ensureProcessStopped config .done
    (putEach .unhandleSyscall (joinAndCheckStatus .done .done) handlers)

def step : Program :=
  changeStateFunctionThread config
    (ensureProcessStopped config .done
      (.put .step (.put .wait (joinAndCheckStatus .done .done))))

/-- The address may not resolve. -/
def stepUntil : Program :=
  changeStateFunctionThread config
    (.either .done (.put .stepUntil (joinAndCheckStatus .done .done)))

def finish : Program :=
  changeStateFunctionThread config (.put .finish (joinAndCheckStatus .done .done))

def peekMemory : Program :=
  .ifInstanced
    (ensureProcessStopped config .done (.put .peekMemory (.join (.getResponse .done))))
    .done

def pokeMemory : Program :=
  .ifInstanced
    (ensureProcessStopped config .done (.put .pokeMemory (joinAndCheckStatus .done .done)))
    .done

end Program

inductive Call where
  | run | attach | detach | kill | terminate | cont | interrupt | wait | breakpoint | catchSignal
  | hijackSignal | handleSyscall | hijackSyscall | gdb | step | stepUntil | finish | peekMemory
  | pokeMemory
  | enablePrettyPrint (handlers : Nat)
  | disablePrettyPrint (handlers : Nat)
  deriving DecidableEq, Repr

def Call.program (config : Config) : Call → Program
  | .run => .run config
  | .attach => .attach config
  | .detach => .detach config
  | .kill => .kill config .done .done
  | .terminate => .terminateThread
  | .cont => .cont config
  | .interrupt => .interrupt .done .done
  | .wait => .wait .done .done
  | .breakpoint => .breakpoint config
  | .catchSignal => .catchSignal config
  | .hijackSignal => .hijackSignal config
  | .handleSyscall => .handleSyscall config
  | .hijackSyscall => .hijackSyscall config
  | .gdb => .gdb config
  | .step => .step config
  | .stepUntil => .stepUntil config
  | .finish => .finish config
  | .peekMemory => .peekMemory config
  | .pokeMemory => .pokeMemory config
  | .enablePrettyPrint handlers => .enablePrettyPrint config handlers
  | .disablePrettyPrint handlers => .disablePrettyPrint config handlers

/-! ### The two threads -/

inductive MainThread where
  | executing (program : Program)
  /-- an answer has been taken, and is to be reported done -/
  | acknowledging (next : Program)
  /-- `polling_thread.join()` -/
  | joiningPoller (next : Program)

inductive Poller where
  /-- `command_queue.get()` -/
  | waiting
  | executing (command : Command)
  /-- the answer is put, the command is to be reported done -/
  | answered
  /-- `response_queue.join()` -/
  | joining
  | finished
  deriving DecidableEq, Repr

structure System where
  commands : TaskQueue Command
  responses : TaskQueue Response
  main : MainThread
  poller : Poller
  running : Bool
  instanced : Bool
  polling : Bool

inductive Event where
  | call (call : Call)
  /-- the main thread goes on; the choice is for `either` -/
  | main (choice : Bool)
  /-- the polling thread takes a command -/
  | get
  /-- the command being executed sets `running` -/
  | setRunning (running : Bool)
  /-- the command has been executed -/
  | executed (answer : Option Response)
  /-- the command is reported done, after its answer -/
  | taskDone
  /-- the response queue has been joined -/
  | joined
  deriving DecidableEq, Repr

namespace System

/-- After `start_up`. -/
def initial : System where
  commands := .empty
  responses := .empty
  main := .executing .done
  poller := .waiting
  running := false
  instanced := false
  polling := true

variable (s : System)

def proceed (next : Program) : System := { s with main := .executing next }

/-- One step of the program of the main thread. -/
def advance (choice : Bool) : Program → Option System
  | .done => none
  | .put command next => some { s.proceed next with commands := s.commands.put command }
  | .join next => if s.commands.unfinished = 0 then some (s.proceed next) else none
  | .checkStatus raised next =>
      match s.responses.get? with
      | none => some (s.proceed next)
      | some (_, responses) => some { s with responses, main := .acknowledging raised }
  | .getResponse next =>
      s.responses.get?.map fun (_, responses) => { s with responses, main := .acknowledging next }
  | .ifRunning yes no => some (s.proceed (if s.running then yes else no))
  | .ifInstanced yes no => some (s.proceed (if s.instanced then yes else no))
  | .ifQueueEmpty yes no => some (s.proceed (if s.commands.items = [] then yes else no))
  | .ifPolling yes no => some (s.proceed (if s.polling then yes else no))
  | .setInstanced instanced next => some { s.proceed next with instanced }
  | .clear next => some { s.proceed next with instanced := false, running := false }
  | .terminate next =>
      some { s with commands := s.commands.put .terminate, main := .joiningPoller next }
  | .either first second => some (s.proceed (if choice then first else second))

def mainStep (choice : Bool) : Option System :=
  match s.main with
  | .executing program => s.advance choice program
  | .acknowledging next => some { s.proceed next with responses := s.responses.taskDone }
  | .joiningPoller next =>
      if s.poller = .finished then some { s.proceed next with polling := false } else none

/-- What follows the execution of a command. Reading memory always answers. -/
def executed (command : Command) (answer : Option Response) : Option System :=
  match command, answer with
  | .terminate, none => some { s with commands := s.commands.taskDone, poller := .finished }
  | .terminate, some _ | .peekMemory, none => none
  | _, none => some { s with commands := s.commands.taskDone, poller := .waiting }
  | _, some response => some { s with responses := s.responses.put response, poller := .answered }

def step (config : Config) : Event → Option System
  | .call call =>
      match s.main with
      | .executing .done => some (s.proceed (call.program config))
      | _ => none
  | .main choice => s.mainStep choice
  | .get =>
      match s.poller, s.commands.get? with
      | .waiting, some (command, commands) => some { s with commands, poller := .executing command }
      | _, _ => none
  | .setRunning running =>
      match s.poller with
      | .executing _ => some { s with running }
      | _ => none
  | .executed answer =>
      match s.poller with
      | .executing command => s.executed command answer
      | _ => none
  | .taskDone =>
      match s.poller with
      | .answered => some { s with commands := s.commands.taskDone, poller := .joining }
      | _ => none
  | .joined =>
      if s.poller = .joining ∧ s.responses.unfinished = 0 then some { s with poller := .waiting }
      else none

/-- The main thread is blocked in a join, or waits for an answer. -/
def mainBlocked : Bool :=
  match s.main with
  | .executing (.join _) => s.commands.unfinished ≠ 0
  | .executing (.getResponse _) => s.responses.items = []
  | .joiningPoller _ => s.poller ≠ .finished
  | _ => false

/-- The polling thread waits for its answer to be taken. -/
def pollerBlocked : Bool := s.poller = .joining && s.responses.unfinished ≠ 0

def Deadlocked : Prop := s.mainBlocked = true ∧ s.pollerBlocked = true

instance : Decidable s.Deadlocked := inferInstanceAs (Decidable (_ ∧ _))

end System

/-- The machine of the two threads. -/
def threads (config : Config) : Machine System Event := ⟨fun s event => s.step config event⟩

end Libdebug.InternalDebugger
