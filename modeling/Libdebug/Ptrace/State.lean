import Libdebug.Cffi.Kernel
import Libdebug.Foundation.Dict
import Libdebug.Foundation.Effects

/-!
The objects of the Python layer and the state they make up: breakpoints, syscall
handlers, signal catchers, thread contexts, one hardware breakpoint manager for each
thread, and the fields of `InternalDebugger`, `PtraceInterface`, `PtraceStatusHandler`
and `ResumeContext` that the modelled methods use.

Breakpoint objects outlive their entry in `breakpoints`: the debug registers and the
user keep references to them. They live in a heap addressed by `Ref`. Thread contexts
are never removed from `threads`, so a position in that list is the identity of one.
-/

namespace Libdebug.Ptrace

open Libdebug.Foundation Libdebug.Cffi

/-- The identity of a function the user passed in. -/
abbrev Callback := Nat

abbrev Ref := Nat

structure Breakpoint where
  address : Nat := 0
  symbol : String := ""
  hitCount : Nat := 0
  hardware : Bool := false
  callback : Option Callback := none
  condition : Option String := some "x"
  length : Nat := 1
  enabled : Bool := true
  linkedThreadIds : List Int := []
  disabledForStep : Bool := false
  changed : Bool := false
  deriving DecidableEq

structure SyscallHandler where
  syscallNumber : Nat
  onEnterUser : Option Callback
  onExitUser : Option Callback
  /-- whether a pretty printer is set; it only prints -/
  onEnterPprint : Bool
  onExitPprint : Bool
  recursive : Bool := false
  enabled : Bool := true
  hitCount : Nat := 0
  hasEntered : Bool := false
  skipExit : Bool := false
  deriving DecidableEq

structure SignalCatcher where
  signalNumber : Nat
  callback : Option Callback
  recursive : Bool := true
  enabled : Bool := true
  hitCount : Nat := 0
  deriving DecidableEq

structure ThreadContext where
  threadId : Int
  registerFile : Ptr
  signalNumber : Nat := 0
  dead : Bool := false
  exitCode : Option Nat := none
  exitSignal : Option Nat := none

/-- The debug registers that hold an address. -/
inductive DebugReg where
  | dr0 | dr1 | dr2 | dr3
  deriving DecidableEq, Repr

/-- `Amd64PtraceHardwareBreakpointManager` -/
structure HardwareBreakpointManager where
  breakpointCount : Nat := 0
  breakpointRegisters : DebugReg → Option Ref := fun _ => none

structure ResumeContext where
  resume : Bool := true
  forceInterrupt : Bool := false
  isAStep : Bool := false
  isStartup : Bool := false
  threadsWithSignalsToForward : List Int := []

inductive PyError where
  | runtimeError (message : String)
  | valueError (message : String)
  | osError (errno : Nat)
  | keyError
  | indexError
  | stopIteration
  /-- whatever a function of the user raises -/
  | user (error : Nat)
  deriving DecidableEq, Repr

/-- Why a method does not return. -/
inductive Abort where
  | raised (error : PyError)
  /-- a null pointer was dereferenced in the C layer -/
  | crash
  /-- a loop had not ended when its fuel ran out, or never ends -/
  | hang
  deriving DecidableEq, Repr

/-- The places from which functions of the user are called. -/
inductive CallSite where
  | breakpoint (address : Nat)
  | onEnter (syscallNumber : Nat)
  | onExit (syscallNumber : Nat)
  | signal (signalNumber : Nat)
  deriving DecidableEq, Repr

/-- What the two tables and the debug registers hold at one moment. -/
structure Snapshot where
  /-- `b_HEAD`: addresses and flags -/
  entries : List (Nat × Bool)
  /-- the software breakpoints of `breakpoints`: addresses and flags -/
  software : List (Nat × Bool)
  /-- the enabled hardware breakpoints of `breakpoints` -/
  hardware : List Ref
  /-- the debug registers of each thread that has a manager -/
  registers : List (Int × (DebugReg → Option Ref))

/-- The fields `called` and `applied` are a history that no method reads: the calls of
functions of the user, and the tables each time `cont` had applied pending changes.
Both are newest first. -/
structure Debugger (K : Type) where
  globalState : GlobalState
  world : World K
  objects : Ref → Breakpoint
  nextRef : Ref
  breakpoints : Dict Nat Ref
  handledSyscalls : Dict Nat SyscallHandler
  caughtSignals : Dict Nat SignalCatcher
  signalsToBlock : List Nat
  threads : List ThreadContext
  resumeContext : ResumeContext
  hardwareBpHelpers : Dict Int HardwareBreakpointManager
  processId : Int
  forwardSignal : Bool
  called : List (CallSite × Int)
  applied : List Snapshot

/-- A method of the Python layer. What it did before it raised stays done. -/
abbrev Py (K : Type) := EStateM Abort (Debugger K)

namespace Debugger

variable {K : Type}

def initial (world : World K) : Debugger K where
  globalState := .empty
  world := world
  objects := fun _ => {}
  nextRef := 0
  breakpoints := .empty
  handledSyscalls := .empty
  caughtSignals := .empty
  signalsToBlock := []
  threads := []
  resumeContext := {}
  hardwareBpHelpers := .empty
  processId := 0
  forwardSignal := true
  called := []
  applied := []

variable (s : Debugger K)

/-- The position of the first live thread context with the id. -/
def getThreadById (threadId : Int) : Option Nat :=
  s.threads.findIdx? fun thread => thread.threadId = threadId && !thread.dead

/-- `thread._signal_number` -/
def signalNumber (thread : Nat) : Nat := (s.threads[thread]?.map (·.signalNumber)).getD 0

def updateThread (thread : Nat) (f : ThreadContext → ThreadContext) : Debugger K :=
  { s with threads := s.threads.modify thread f }

def updateBreakpoint (bp : Ref) (f : Breakpoint → Breakpoint) : Debugger K :=
  { s with objects := Function.update s.objects bp (f (s.objects bp)) }

def updateHandler (syscallNumber : Nat) (f : SyscallHandler → SyscallHandler) : Debugger K :=
  { s with handledSyscalls := s.handledSyscalls.modify syscallNumber f }

def updateCatcher (signalNumber : Nat) (f : SignalCatcher → SignalCatcher) : Debugger K :=
  { s with caughtSignals := s.caughtSignals.modify signalNumber f }

def setResume (resume : Bool) : Debugger K :=
  { s with resumeContext := { s.resumeContext with resume } }

def setForwardSignal (forwardSignal : Bool) : Debugger K := { s with forwardSignal }

/-- A register of a thread context, read through the pointer to its register file. -/
def readReg (thread : ThreadContext) (reg : Reg) : Nat :=
  s.globalState.files thread.registerFile reg

def writeReg (file : Ptr) (reg : Reg) (value : Nat) : Debugger K :=
  { s with globalState :=
      s.globalState.setFile file (Function.update (s.globalState.files file) reg value) }

/-- The addresses and flags of the software breakpoints in `breakpoints`. -/
def softwareTable : List (Nat × Bool) :=
  ((s.breakpoints.values.map s.objects).filter fun bp => !bp.hardware).map fun bp =>
    (bp.address, bp.enabled)

/-- The enabled hardware breakpoints in `breakpoints`. -/
def enabledHardware : List Ref :=
  s.breakpoints.values.filter fun bp => (s.objects bp).hardware && (s.objects bp).enabled

def snapshot : Snapshot where
  entries := s.globalState.bHead.map fun b => (b.addr, b.enabled)
  software := s.softwareTable
  hardware := s.enabledHardware
  registers := s.hardwareBpHelpers.entries.map fun helper =>
    (helper.1, helper.2.breakpointRegisters)

end Debugger

/-! ### The identity of threads -/

section Identity

variable {K : Type}

namespace Debugger

/-- The fields of the thread contexts by which a thread and its registers are found. -/
def identities (s : Debugger K) : List (Int × Bool × Ptr) :=
  s.threads.map fun thread => (thread.threadId, thread.dead, thread.registerFile)

/-- The register file of the live thread context with the id. -/
def liveFile (s : Debugger K) (threadId : Int) : Option Ptr :=
  ((s.getThreadById threadId).bind (s.threads[·]?)).map (·.registerFile)

theorem liveFile_of_identities {s t : Debugger K} (same : t.identities = s.identities)
    (threadId : Int) : t.liveFile threadId = s.liveFile threadId := by
  have found (r : Debugger K) : r.liveFile threadId =
      (r.identities.find? fun id => id.1 = threadId && !id.2.1).map (·.2.2) := by
    rw [liveFile, getThreadById, ← List.find?_eq_bind_findIdx?_getElem?, identities,
      List.find?_map, Option.map_map]
    rfl
  rw [found, found, same]

theorem identities_updateThread (s : Debugger K) (thread : Nat) {f : ThreadContext → ThreadContext}
    (same : ∀ t, ((f t).threadId, (f t).dead, (f t).registerFile) =
      (t.threadId, t.dead, t.registerFile)) :
    (s.updateThread thread f).identities = s.identities := by
  refine List.ext_getElem? fun i => ?_
  simp only [identities, updateThread, List.getElem?_map, List.getElem?_modify]
  cases s.threads[i]? with
  | none => rfl
  | some t =>
      simp only [Option.map_some, Option.map_eq_map]
      split
      · rw [same t]
      · rfl

end Debugger

end Identity

/-- The live thread context with the id. -/
def getThreadById {K : Type} (threadId : Int) : Py K (Option Nat) := do
  let s ← get
  pure (s.getThreadById threadId)

theorem run_getThreadById {K : Type} (threadId : Int) (s : Debugger K) :
    (getThreadById threadId).run s = .ok (s.getThreadById threadId) s := rfl

/-- Raise an exception. -/
def raise {K : Type} {α : Type} (error : PyError) : Py K α := throw (.raised error)

end Libdebug.Ptrace
