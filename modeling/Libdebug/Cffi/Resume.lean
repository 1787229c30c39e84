import Libdebug.Cffi.SoftwareBreakpoints

/-!
The functions of the C layer that let the tracee run: `singlestep`, `step_until`,
`prepare_for_run`, `cont_all_and_set_bps` and `stepping_finish`.

The stepping loops have no bound of their own, so they take a fuel. A result
`none` means that the function is still in its loop after that many iterations;
the state is the one it has reached there.
-/

namespace Libdebug.Cffi

open Libdebug.Foundation

variable {K : Type} (k : Kernel K)

/-- Flush any register changes: the `PTRACE_SETREGS` loop that every resuming
function starts with. -/
def flushRegs (g : GlobalState) (w : World K) : World K :=
  g.tHead.foldl (fun w t => w.setregs k t.tid (g.files t.regs)) w

/-- `waitpid(tid, &status, 0)`: the status variable keeps its value on failure. -/
def waitStatus (site : WaitSite) (tid : Int) (status : Nat) (w : World K) : Nat × World K :=
  match w.waitpid k site (.thread tid) false with
  | (none, w) => (status, w)
  | (some reported, w) => (reported.status, w)

/-- The signal of the thread to step, and the list with that signal taken. -/
def takeSignal (tid : Int) : List Thread → Nat → Nat × List Thread
  | [], signal => (signal, [])
  | t :: rest, signal =>
      if t.tid = tid then
        let (taken, rest) := takeSignal tid rest t.signalToForward
        (taken, { t with signalToForward := 0 } :: rest)
      else
        let (taken, rest) := takeSignal tid rest signal
        (taken, t :: rest)

def singlestep (g : GlobalState) (w : World K) (tid : Int) : Int × GlobalState × World K :=
  let w := flushRegs k g w
  let (signal, tHead) := takeSignal tid g.tHead 0
  let (stepped, w) := w.singlestep k tid signal
  (if stepped then 0 else -1, { g with tHead }, w)

def stepUntilLoop (tid : Int) (file : Ptr) (addr : Nat) (maxSteps : Int) :
    Nat → Int → GlobalState → World K → Option Int × GlobalState × World K
  | 0, _, g, w => (none, g, w)
  | fuel + 1, count, g, w =>
      if maxSteps = -1 ∨ count < maxSteps then
        match w.singlestep k tid 0 with
        | (false, w) => (some (-1), g, w)
        | (true, w) =>
            let (_, w) := w.waitpid k .stepUntil (.thread tid) false
            let previousIp := instructionPointer (g.files file)
            let g := g.getregs k w tid file
            let ip := instructionPointer (g.files file)
            if ip = addr then (some 0, g, w)
            -- if the instruction pointer did not change, a hardware breakpoint was hit
            else if ip = previousIp then stepUntilLoop tid file addr maxSteps fuel count g w
            else stepUntilLoop tid file addr maxSteps fuel (count + 1) g w
      else (some 0, g, w)

def stepUntil (fuel : Nat) (g : GlobalState) (w : World K) (tid : Int) (addr : Nat)
    (maxSteps : Int) : Option Int × GlobalState × World K :=
  let w := flushRegs k g w
  match (g.tHead.filter (·.tid = tid)).getLast? with
  | none => (some (-1), g, w)
  | some t => stepUntilLoop k tid t.regs addr maxSteps fuel 0 g w

/-- An entry of the table lies at the instruction pointer, switched on or not. -/
def hitsBreakpoint (bHead : List SoftwareBreakpoint) (ip : Nat) : Bool :=
  bHead.any (·.addr = ip)

/-- The step-over loop of `prepare_for_run`; `none` stands for `return -1`. The
status 4991 is a stop by `SIGSTOP`. -/
def stepOver (g : GlobalState) : List Thread → Nat → World K → Option Nat × World K
  | [], status, w => (some status, w)
  | t :: rest, status, w =>
      if hitsBreakpoint g.bHead (g.ip t) then
        match w.singlestep k t.tid 0 with
        | (false, w) => (none, w)
        | (true, w) =>
            let (status, w) := waitStatus k .prepareForRun t.tid status w
            if status = 4991 then
              let (_, w) := w.singlestep k t.tid 0
              let (status, w) := waitStatus k .prepareForRun t.tid status w
              stepOver g rest status w
            else stepOver g rest status w
      else stepOver g rest status w

def prepareForRun (g : GlobalState) (w : World K) : Int × World K :=
  let w := flushRegs k g w
  match stepOver k g g.tHead 0 w with
  | (none, w) => (-1, w)
  | (some status, w) => (status, armBreakpoints g w)

def contAllAndSetBps (g : GlobalState) (w : World K) : Int × GlobalState × World K :=
  let (status, w) := prepareForRun k g w
  let w := g.tHead.foldl
    (fun w t => w.cont k g.handleSyscallEnabled t.tid t.signalToForward) w
  (status, { g with tHead := g.tHead.map fun t => { t with signalToForward := 0 } }, w)

/-- `IS_SW_BREAKPOINT(first_opcode_byte)` -/
def isSwBreakpoint (window : Word) : Bool := byteOf window 0 = 0xCC#8

/-- `IS_RET_INSTRUCTION(first_opcode_byte)` -/
def isRetInstruction (window : Word) : Bool :=
  let instruction := byteOf window 0
  instruction = 0xC3#8 || instruction = 0xCB#8 || instruction = 0xC2#8 || instruction = 0xCA#8

/-- `IS_CALL_INSTRUCTION((uint8_t*) &opcode_window)` -/
def isCallInstruction (window : Word) : Bool :=
  if byteOf window 0 = 0xE8#8 then true
  else if byteOf window 0 = 0xFF#8 then
    let modRM := byteOf window 1
    let reg := (modRM >>> 3) &&& 7#8
    reg = 2#8
  else false

/-- The counter of nested calls, updated at the instruction about to be executed. -/
def countNestedCalls (opcodeWindow : Word) (nestedCallCounter : Int) : Int :=
  if isCallInstruction opcodeWindow then nestedCallCounter + 1
  else if isRetInstruction opcodeWindow then nestedCallCounter - 1
  else nestedCallCounter

/-- How the `do … while` loop of `stepping_finish` was left, if it was. -/
inductive FinishLoop where
  | stepping
  | failed
  | cleanup
  | atReturn
  deriving DecidableEq, Repr

def steppingFinishLoop (tid : Int) (file : Ptr) :
    Nat → Int → GlobalState → World K → FinishLoop × GlobalState × World K
  | 0, _, g, w => (.stepping, g, w)
  | fuel + 1, nestedCallCounter, g, w =>
      match w.singlestep k tid 0 with
      | (false, w) => (.failed, g, w)
      | (true, w) =>
          let (_, w) := w.waitpid k .steppingFinish (.thread tid) false
          let previousIp := instructionPointer (g.files file)
          let g := g.getregs k w tid file
          let currentIp := instructionPointer (g.files file)
          let opcodeWindow := w.peekdata currentIp
          -- a hardware breakpoint leaves the instruction pointer where it was
          if currentIp = previousIp ∨ isSwBreakpoint opcodeWindow then (.cleanup, g, w)
          else if countNestedCalls opcodeWindow nestedCallCounter > 0 then
            steppingFinishLoop tid file fuel (countNestedCalls opcodeWindow nestedCallCounter) g w
          else (.atReturn, g, w)

def steppingFinish (fuel : Nat) (g : GlobalState) (w : World K) (tid : Int) :
    Option Int × GlobalState × World K :=
  let (_, w) := prepareForRun k g w
  match g.tHead.find? (·.tid = tid) with
  | none => (some (-1), g, w)
  | some t =>
      match steppingFinishLoop k tid t.regs fuel 1 g w with
      | (.stepping, g, w) => (none, g, w)
      | (.failed, g, w) => (some (-1), g, w)
      | (.cleanup, g, w) => (some 0, g, restoreBreakpoints g w)
      | (.atReturn, g, w) =>
          -- the thread is at a return instruction: do the last step
          match w.singlestep k tid 0 with
          | (false, w) => (some (-1), g, w)
          | (true, w) =>
              let (_, w) := w.waitpid k .steppingFinish (.thread tid) false
              let g := g.getregs k w tid t.regs
              (some 0, g, restoreBreakpoints g w)

end Libdebug.Cffi
