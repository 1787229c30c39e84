import Libdebug.Ptrace.State

/-!
The hardware breakpoint manager of one thread (`amd64_ptrace_hw_bp_helper.py`). A
manager is found by the id of its thread.
-/

namespace Libdebug.Ptrace

open Libdebug.Foundation Libdebug.Cffi

variable {K : Type} (k : Kernel K)

/-- `_peek_user` -/
def peekUser (threadId : Int) (address : Nat) : Py K Nat := do
  let s ← get
  match k.peekuser s.world.os threadId address with
  | some value => pure value
  | none => raise (.osError (k.errno s.world.os))

/-- `_poke_user`: the result is unsigned and compared with -1, so nothing is raised. -/
def pokeUser (threadId : Int) (address value : Nat) : Py K Unit :=
  modify fun s =>
    match k.pokeuser s.world.os threadId address value with
    | some os => { s with world := { s.world with os } }
    | none => s

namespace DebugReg

/-- The order of the keys of `breakpoint_registers`. -/
def all : List DebugReg := [dr0, dr1, dr2, dr3]

/-- `AMD64_DBGREGS_OFF` -/
def offset : DebugReg → Nat
  | dr0 => 0x350
  | dr1 => 0x358
  | dr2 => 0x360
  | dr3 => 0x368

/-- `AMD64_DBGREGS_CTRL_LOCAL` -/
def ctrlLocal : DebugReg → Nat
  | dr0 => 1 <<< 0
  | dr1 => 1 <<< 2
  | dr2 => 1 <<< 4
  | dr3 => 1 <<< 6

/-- `AMD64_DBGREGS_CTRL_COND` -/
def ctrlCond : DebugReg → Nat
  | dr0 => 16
  | dr1 => 20
  | dr2 => 24
  | dr3 => 28

/-- `AMD64_DBGREGS_CTRL_LEN` -/
def ctrlLen : DebugReg → Nat
  | dr0 => 18
  | dr1 => 22
  | dr2 => 26
  | dr3 => 30

end DebugReg

/-- The offset of `DR6`, the debug status. -/
def dr6Offset : Nat := 0x380

/-- The offset of `DR7`, the debug control. -/
def dr7Offset : Nat := 0x388

/-- `AMD64_DBGREGS_CTRL_COND_VAL` -/
def ctrlCondVal : Option String → Option Nat
  | some "x" => some 0
  | some "w" => some 1
  | some "rw" => some 3
  | _ => none

/-- `AMD64_DBGREGS_CTRL_LEN_VAL` -/
def ctrlLenVal : Nat → Option Nat
  | 1 => some 0
  | 2 => some 1
  | 8 => some 2
  | 4 => some 3
  | _ => none

/-- `AMD64_DBREGS_COUNT` -/
def dbregsCount : Nat := 4

/-- `value & ~mask` -/
def clearBits (value mask : Nat) : Nat := value ^^^ (value &&& mask)

/-- `self.hardware_bp_helpers[thread_id]` -/
def getHelper (threadId : Int) : Py K HardwareBreakpointManager := do
  let s ← get
  match s.hardwareBpHelpers.get? threadId with
  | some helper => pure helper
  | none => raise .keyError

def Debugger.setDebugReg (s : Debugger K) (threadId : Int) (register : DebugReg)
    (bp : Option Ref) (breakpointCount : Nat → Nat) : Debugger K :=
  { s with hardwareBpHelpers := s.hardwareBpHelpers.modify threadId fun helper =>
      { breakpointCount := breakpointCount helper.breakpointCount
        breakpointRegisters := Function.update helper.breakpointRegisters register bp } }

def installBreakpoint (threadId : Int) (ref : Ref) : Py K Unit := do
  let helper ← getHelper threadId
  let s ← get
  let bp := s.objects ref
  if helper.breakpointCount ≥ dbregsCount then
    raise (.runtimeError "No more hardware breakpoints available.")
  else
    -- find the first available breakpoint register
    match DebugReg.all.find? fun register => helper.breakpointRegisters register = none with
    | none => raise .stopIteration
    | some register =>
        pokeUser k threadId register.offset bp.address
        match ctrlCondVal bp.condition, ctrlLenVal bp.length with
        | some cond, some len =>
            let ctrl := register.ctrlLocal ||| (cond <<< register.ctrlCond) |||
              (len <<< register.ctrlLen)
            let currentCtrl ← peekUser k threadId dr7Offset
            let currentCtrl := clearBits currentCtrl (0x3 <<< register.ctrlCond)
            let currentCtrl := clearBits currentCtrl (0x3 <<< register.ctrlLen)
            pokeUser k threadId dr7Offset (currentCtrl ||| ctrl)
            modify (·.setDebugReg threadId register (some ref) (· + 1))
        | _, _ => raise .keyError

/-- The register whose breakpoint equals the given one, field by field. -/
def Debugger.findDebugReg (s : Debugger K) (helper : HardwareBreakpointManager) (ref : Ref) :
    Option DebugReg :=
  DebugReg.all.find? fun register =>
    match helper.breakpointRegisters register with
    | some installed => s.objects installed = s.objects ref
    | none => false

def removeBreakpoint (threadId : Int) (ref : Ref) : Py K Unit := do
  let helper ← getHelper threadId
  let s ← get
  if helper.breakpointCount ≤ 0 then
    raise (.runtimeError "No more hardware breakpoints to remove.")
  else
    match s.findDebugReg helper ref with
    | none => raise .stopIteration
    | some register =>
        pokeUser k threadId register.offset 0
        let currentCtrl ← peekUser k threadId dr7Offset
        pokeUser k threadId dr7Offset (clearBits currentCtrl register.ctrlLocal)
        modify (·.setDebugReg threadId register none (· - 1))

def availableBreakpoints (threadId : Int) : Py K Nat := do
  let helper ← getHelper threadId
  pure (dbregsCount - helper.breakpointCount)

/-- The register whose bit is set in `DR6`; the first one counts. -/
def hitDebugReg (dr6 : Nat) : Option DebugReg :=
  if dr6 &&& 0x1 ≠ 0 then some .dr0
  else if dr6 &&& 0x2 ≠ 0 then some .dr1
  else if dr6 &&& 0x4 ≠ 0 then some .dr2
  else if dr6 &&& 0x8 ≠ 0 then some .dr3
  else none

def isWatchpointHit (threadId : Int) : Py K (Option Ref) := do
  let helper ← getHelper threadId
  let dr6 ← peekUser k threadId dr6Offset
  let s ← get
  match (hitDebugReg dr6).bind helper.breakpointRegisters with
  | none => pure none
  -- it is a breakpoint, we do not care here
  | some bp => pure (if (s.objects bp).condition = some "x" then none else some bp)

end Libdebug.Ptrace
