import Libdebug.Foundation.Scripts
import Libdebug.Foundation.ByteStrings
import Mathlib.Data.List.Infix

/-!
`PipeManager`: the output of the child process, read through a file descriptor in pieces as
they arrive. What a call has read is held in local buffers until it returns; where an
exception leaves the call it is lost with them.

The clock, `select` and `os.read` answer from a script. Times are whole numbers of some
unit.
-/

namespace Libdebug.Utils

open Libdebug.Foundation

structure PipeManager where
  stdinWrite : Nat
  stdoutRead : Nat
  stderrRead : Nat

/-- What a reading of the clock is for. -/
inductive Reading where
  /-- to set the alarm -/
  | alarm
  /-- to leave the loop of `_recv` when the timeout is reached -/
  | breakOn
  /-- to raise when the timeout is reached -/
  | raiseOn
  /-- to adjust a timeout to the remaining time -/
  | remaining
  deriving DecidableEq, Repr

inductive Answer where
  | time (reading : Reading) (now : Int)
  | selected (ready : Bool)
  | data (bytes : List Byte)
  /-- `select` or `os.read` raise an `OSError` -/
  | failed (errno : Nat)
  deriving DecidableEq, Repr

inductive PipeError where
  | valueError (message : String)
  | runtimeError (message : String)
  | timeoutError (message : String)
  | osError (errno : Nat)
  deriving DecidableEq, Repr

abbrev Reads (α : Type) := Script PipeError Answer α

/-- `time.time()` -/
def time (reading : Reading) : Reads Int :=
  Script.ask fun
    | .time asked now => if asked = reading then some (.ok now) else none
    | _ => none

/-- `select([pipe_read], [], [], timeout)` -/
def select (timeout : Int) : Reads Bool :=
  if timeout < 0 then
    Script.raise (.valueError "timeout must be non-negative")
  else
    Script.ask fun
      | .selected ready => some (.ok ready)
      | .failed errno => some (.error (.osError errno))
      | _ => none

/-- `os.read(pipe_read, numb)` -/
def osRead (numb : Nat) : Reads (List Byte) :=
  Script.ask fun
    | .data bytes => if bytes.length ≤ numb then some (.ok bytes) else none
    | .failed errno => some (.error (.osError errno))
    | _ => none

namespace PipeManager

/-- The loop of `_recv`. A turn after which it goes on takes a byte at least, so that `numb`
turns are enough. -/
def recvLoop (endTime : Int) : Nat → Int → List Byte → Reads (List Byte)
  | 0, _, dataBuffer => pure dataBuffer
  | turns + 1, numb, dataBuffer =>
      if numb > 0 then do
        if (← time .breakOn) > endTime then
          -- timeout reached
          pure dataBuffer
        else do
          let remainingTime := max 0 (endTime - (← time .remaining))
          if ← select remainingTime then do
            let data ← Script.translate
              (fun _ => .runtimeError "Broken pipe. Is the child process still running?")
              (osRead numb.toNat)
            if data = [] then
              -- no more data available
              pure dataBuffer
            else
              recvLoop endTime turns (numb - data.length) (dataBuffer ++ data)
          else
            -- no data ready within the remaining timeout
            pure dataBuffer
      else
        pure dataBuffer

/-- `_recv`: none and zero are one for `numb`. -/
def receive (pipe : PipeManager) (numb : Option Int) (timeout : Int) (stderr : Bool) :
    Reads (List Byte) :=
  let pipeRead := if stderr then pipe.stderrRead else pipe.stdoutRead
  if pipeRead = 0 then
    Script.raise (.runtimeError "No pipe of the child process")
  else if numb.getD 0 ≠ 0 then
    let numb := numb.getD 0
    if numb < 0 then
      Script.raise (.valueError "The number of bytes to receive must be positive")
    else do
      let endTime := (← time .alarm) + timeout
      recvLoop endTime numb.toNat numb []
  else do
    if ← select timeout then
      -- read all available bytes up to 4096
      osRead 4096
    else
      pure []

/-- The loop of `_recvonceuntil`. Each turn asks the clock, so that it ends with the script. -/
def recvOnceUntilLoop (pipe : PipeManager) (delims : List Byte) (drop stderr : Bool)
    (endTime : Int) : Nat → List Byte → Reads (List Byte)
  | 0, _ => throw .unanswered
  | turns + 1, dataBuffer => do
      if (← time .raiseOn) > endTime then
        Script.raise (.timeoutError "Timeout reached")
      else do
        let remainingTime := max 0 (endTime - (← time .remaining))
        let data ← pipe.receive (some 1) remainingTime stderr
        let dataBuffer := dataBuffer ++ data
        if delims <:+: dataBuffer then
          -- delims reached
          pure (if drop then sliceTo dataBuffer (-delims.length) else dataBuffer)
        else
          recvOnceUntilLoop pipe delims drop stderr endTime turns dataBuffer

/-- `_recvonceuntil` -/
def recvOnceUntil (pipe : PipeManager) (delims : List Byte) (drop : Bool) (timeout : Int)
    (stderr : Bool) : Reads (List Byte) := do
  let endTime := (← time .alarm) + timeout
  let script ← get
  pipe.recvOnceUntilLoop delims drop stderr endTime script.length []

/-- The loop of `_recvuntil`. -/
def recvUntilLoop (pipe : PipeManager) (delims : List Byte) (drop stderr : Bool)
    (endTime : Int) : Nat → List Byte → Reads (List Byte)
  | 0, dataBuffer => pure dataBuffer
  | occurences + 1, dataBuffer => do
      let remainingTime := max 0 (endTime - (← time .remaining))
      let data ← pipe.recvOnceUntil delims drop remainingTime stderr
      recvUntilLoop pipe delims drop stderr endTime occurences (dataBuffer ++ data)

/-- `_recvuntil` -/
def receiveUntil (pipe : PipeManager) (delims : List Byte) (occurences : Int) (drop : Bool)
    (timeout : Int) (stderr : Bool) : Reads (List Byte) :=
  if occurences ≤ 0 then
    Script.raise (.valueError "The number of occurences to receive must be positive")
  else do
    let endTime := (← time .alarm) + timeout
    pipe.recvUntilLoop delims drop stderr endTime occurences.toNat []

def recv (pipe : PipeManager) (numb : Option Int) (timeout : Int) : Reads (List Byte) :=
  pipe.receive numb timeout false

def recvuntil (pipe : PipeManager) (delims : List Byte) (occurences : Int) (drop : Bool)
    (timeout : Int) : Reads (List Byte) :=
  pipe.receiveUntil delims occurences drop timeout false

def recvline (pipe : PipeManager) (numlines : Int) (drop : Bool) (timeout : Int) :
    Reads (List Byte) :=
  pipe.recvuntil [0x0a#8] numlines drop timeout

end PipeManager

end Libdebug.Utils
