import Libdebug.Foundation.ByteMemory
import Mathlib.Logic.Function.Basic

/-!
The tracer's own state in the C layer (`ptrace_cffi_source.c`): the lists hanging
off `struct global_state`, and the register files the thread nodes embed.

The Python side keeps pointers into the nodes (`&t->regs`), also after a node has
moved to the dead list. Register files therefore live in a heap of their own,
addressed by `Ptr`; a node holds the pointer. Lists are in link order.
-/

namespace Libdebug.Cffi

open Libdebug.Foundation

/-- The fields of `struct user_regs_struct`. -/
inductive Reg where
  | r15 | r14 | r13 | r12 | rbp | rbx | r11 | r10 | r9 | r8 | rax | rcx | rdx | rsi | rdi
  | origRax | rip | cs | eflags | rsp | ss | fsBase | gsBase | ds | es | fs | gs
  deriving DecidableEq, Repr

abbrev UserRegs := Reg → Nat

/-- `INSTRUCTION_POINTER(regs)` -/
def instructionPointer (regs : UserRegs) : Nat := regs .rip

abbrev Ptr := Nat

/-- `INSTALL_BREAKPOINT(instruction)` -/
def installBreakpoint (instruction : Word) : Word :=
  (instruction &&& 0xFFFFFFFFFFFFFF00#64) ||| 0xCC#64

/-- `struct software_breakpoint`. Nothing ever stores a patched word other than the
one made from the saved word. -/
structure SoftwareBreakpoint where
  addr : Nat
  instruction : Word
  patchedInstruction : Word
  enabled : Bool
  patched : patchedInstruction = installBreakpoint instruction
  deriving DecidableEq

structure Thread where
  tid : Int
  regs : Ptr
  signalToForward : Nat
  deriving DecidableEq

/-- `struct global_state`, with the heap its nodes are allocated in: `files` holds
the register file of every node, `fresh` is the next address `malloc` returns. -/
structure GlobalState where
  tHead : List Thread
  deadTHead : List Thread
  bHead : List SoftwareBreakpoint
  handleSyscallEnabled : Bool
  files : Ptr → UserRegs
  fresh : Ptr

namespace GlobalState

def empty : GlobalState where
  tHead := []
  deadTHead := []
  bHead := []
  handleSyscallEnabled := false
  files := fun _ _ => 0
  fresh := 0

/-- Overwrite one register file. -/
def setFile (g : GlobalState) (file : Ptr) (regs : UserRegs) : GlobalState :=
  { g with files := Function.update g.files file regs }

@[simp] theorem setFile_tHead (g : GlobalState) (file : Ptr) (regs : UserRegs) :
    (g.setFile file regs).tHead = g.tHead := rfl

@[simp] theorem setFile_bHead (g : GlobalState) (file : Ptr) (regs : UserRegs) :
    (g.setFile file regs).bHead = g.bHead := rfl

/-- Store a signal to forward in the node that embeds a register file. -/
def forward (g : GlobalState) (file : Ptr) (signal : Nat) : GlobalState :=
  { g with
    tHead := g.tHead.map fun t =>
      if t.regs = file then { t with signalToForward := signal } else t }

/-- The instruction pointer in the register file of a node. -/
def ip (g : GlobalState) (t : Thread) : Nat := instructionPointer (g.files t.regs)

/-- The addresses of the software breakpoints that are switched on. -/
def enabledAddrs (g : GlobalState) : List Nat :=
  (g.bHead.filter (·.enabled)).map (·.addr)

theorem mem_enabledAddrs {g : GlobalState} {addr : Nat} :
    addr ∈ g.enabledAddrs ↔ ∃ b ∈ g.bHead, b.enabled = true ∧ b.addr = addr := by
  simp [enabledAddrs, and_assoc]

end GlobalState

end Libdebug.Cffi
