import Libdebug.Cffi.GlobalState

/-!
The kernel as the C layer sees it: the `ptrace` requests and `waitpid` calls it
issues. The kernel and the tracee are not part of the repository, so their
behaviour is a parameter. Only the tracee's memory is concrete: `PTRACE_PEEKDATA`
and `PTRACE_POKEDATA` read and write the eight bytes at their address.

`World.log` is a history of the requests that matter to the properties of the
tracer; no function of the tracer reads it.
-/

namespace Libdebug.Cffi

open Libdebug.Foundation

def SIGTRAP : Nat := 5
def SIGSTOP : Nat := 19

/-- Why a wait status was reported. The kernel knows; the status shows it only in part. -/
inductive StopCause where
  /-- a signal on its way to the tracee -/
  | delivery
  /-- the end of a `PTRACE_SINGLESTEP` -/
  | singleStep
  /-- the tracee executed `0xCC` -/
  | softwareTrap
  /-- a debug register matched -/
  | debugRegister
  /-- the entry or the exit of a system call -/
  | syscall
  /-- a `PTRACE_EVENT_*` stop -/
  | event
  /-- the `SIGSTOP` the tracer sent, or the initial one of a new thread -/
  | tracerStop
  /-- the thread is gone -/
  | death
  /-- `waitpid` failed and left the status variable as it was -/
  | unreported
  deriving DecidableEq, Repr

/-- `struct thread_status`: what `waitpid` returned and stored. -/
structure ThreadStatus where
  tid : Int
  status : Nat
  cause : StopCause
  deriving DecidableEq, Repr

/-- Whom a `waitpid` call waits for. -/
inductive Target where
  | thread (tid : Int)
  | group (pid : Int)
  deriving DecidableEq, Repr

/-- The requests, on a kernel state `K`. A request that may fail returns `none`, and
then `errno` tells why. -/
structure Kernel (K : Type) where
  errno : K → Nat
  getregs : K → Int → Option UserRegs
  setregs : K → Int → UserRegs → Option K
  peekuser : K → Int → Nat → Option Nat
  pokeuser : K → Int → Nat → Nat → Option K
  geteventmsg : K → Int → Nat
  singlestep : Memory → K → Int → Nat → Option (Memory × K)
  /-- `PTRACE_SYSCALL` when the flag is set, else `PTRACE_CONT` -/
  cont : Memory → K → Bool → Int → Nat → Option (Memory × K)
  tgkill : K → Int → Int → Nat → K
  /-- The flag is `WNOHANG`. -/
  waitpid : Memory → K → Target → Bool → Option ThreadStatus × Memory × K

/-- The `waitpid` calls of the tracer. -/
inductive WaitSite where
  | waitAllAndUpdateRegs
  | prepareForRun
  | stepUntil
  | steppingFinish
  | handleClone
  deriving DecidableEq, Repr

inductive Event where
  /-- a `PTRACE_SINGLESTEP` that succeeded, and the memory the tracee resumes in -/
  | stepped (tid : Int) (signal : Nat) (memory : Memory)
  /-- a `PTRACE_CONT` or `PTRACE_SYSCALL` that succeeded -/
  | resumed (tid : Int) (signal : Nat) (memory : Memory)
  | reaped (site : WaitSite) (status : ThreadStatus)
  /-- a status handed to the status handler of the Python side -/
  | managed (status : ThreadStatus)
  /-- the signal to deliver to a thread was chosen -/
  | chose (tid : Int) (signal : Nat)

/-- Everything outside the tracer, and the history of what the tracer did to it,
newest first. -/
structure World (K : Type) where
  mem : Memory
  os : K
  log : List Event

namespace World

variable {K : Type} (k : Kernel K) (w : World K)

def peekdata (addr : Nat) : Word := peekWord w.mem addr

def pokedata (addr : Nat) (data : Word) : World K := { w with mem := pokeWord w.mem addr data }

def record (event : Event) : World K := { w with log := event :: w.log }

@[simp] theorem record_mem (event : Event) : (w.record event).mem = w.mem := rfl

@[simp] theorem record_os (event : Event) : (w.record event).os = w.os := rfl

@[simp] theorem record_log (event : Event) : (w.record event).log = event :: w.log := rfl

def setregs (tid : Int) (regs : UserRegs) : World K :=
  match k.setregs w.os tid regs with
  | none => w
  | some os => { w with os }

/-- The flag tells whether the request succeeded. -/
def singlestep (tid : Int) (signal : Nat) : Bool × World K :=
  match k.singlestep w.mem w.os tid signal with
  | none => (false, w)
  | some (mem, os) => (true, ({ w with mem, os } : World K).record (.stepped tid signal w.mem))

def cont (syscalls : Bool) (tid : Int) (signal : Nat) : World K :=
  match k.cont w.mem w.os syscalls tid signal with
  | none => w
  | some (mem, os) => ({ w with mem, os } : World K).record (.resumed tid signal w.mem)

def tgkill (pid tid : Int) (signal : Nat) : World K := { w with os := k.tgkill w.os pid tid signal }

/-- The result is `none` where `waitpid` returns a number that is not positive. -/
def waitpid (site : WaitSite) (target : Target) (nohang : Bool) : Option ThreadStatus × World K :=
  match k.waitpid w.mem w.os target nohang with
  | (none, mem, os) => (none, { w with mem, os })
  | (some status, mem, os) =>
      (some status, ({ w with mem, os } : World K).record (.reaped site status))

end World

/-- `ptrace(PTRACE_GETREGS, tid, NULL, &t->regs)`: on failure the file is left alone. -/
def GlobalState.getregs {K : Type} (g : GlobalState) (k : Kernel K) (w : World K) (tid : Int)
    (file : Ptr) : GlobalState :=
  match k.getregs w.os tid with
  | none => g
  | some regs => g.setFile file regs

@[simp] theorem GlobalState.getregs_bHead {K : Type} (g : GlobalState) (k : Kernel K) (w : World K)
    (tid : Int) (file : Ptr) : (g.getregs k w tid file).bHead = g.bHead := by
  unfold getregs
  split <;> rfl

@[simp] theorem GlobalState.getregs_tHead {K : Type} (g : GlobalState) (k : Kernel K) (w : World K)
    (tid : Int) (file : Ptr) : (g.getregs k w tid file).tHead = g.tHead := by
  unfold getregs
  split <;> rfl

@[simp] theorem GlobalState.getregs_fresh {K : Type} (g : GlobalState) (k : Kernel K) (w : World K)
    (tid : Int) (file : Ptr) : (g.getregs k w tid file).fresh = g.fresh := by
  unfold getregs
  split <;> rfl

/-- The tracee leaves the bytes of `text` alone: whatever runs while a request is
served or waited for does not write there. -/
structure Kernel.KeepsText {K : Type} (k : Kernel K) (text : Set Nat) : Prop where
  singlestep : ∀ {mem os tid signal mem' os'}, k.singlestep mem os tid signal = some (mem', os') →
    ∀ x ∈ text, mem' x = mem x
  cont : ∀ {mem os syscalls tid signal mem' os'},
    k.cont mem os syscalls tid signal = some (mem', os') → ∀ x ∈ text, mem' x = mem x
  waitpid : ∀ mem os target nohang, ∀ x ∈ text, (k.waitpid mem os target nohang).2.1 x = mem x

/-! ### A kernel that plays back a script -/

/-- The registers of the stopped threads, their user areas, the event messages, and
what the coming `waitpid` calls report. -/
structure Script where
  registers : Int → Option UserRegs
  user : Int → Nat → Nat := fun _ _ => 0
  message : Int → Nat := fun _ => 0
  reports : List (Option ThreadStatus) := []

/-- The tracee of this kernel does nothing of its own accord: its registers and its
memory change only by request. -/
def scripted : Kernel Script where
  errno _ := 3
  getregs os tid := os.registers tid
  setregs os tid regs := (os.registers tid).map fun _ =>
    { os with registers := Function.update os.registers tid (some regs) }
  peekuser os tid offset := some (os.user tid offset)
  pokeuser os tid offset value := some
    { os with user := Function.update os.user tid (Function.update (os.user tid) offset value) }
  geteventmsg os tid := os.message tid
  singlestep mem os _ _ := some (mem, os)
  cont mem os _ _ _ := some (mem, os)
  tgkill os _ _ _ := os
  waitpid mem os _ _ := (os.reports.head?.join, mem, { os with reports := os.reports.tail })

theorem scripted_keepsText (text : Set Nat) : scripted.KeepsText text where
  singlestep done x _ := by
    cases done
    rfl
  cont done x _ := by
    cases done
    rfl
  waitpid _ _ _ _ _ _ := rfl

/-- A world whose memory holds `nop` everywhere. -/
def World.nops {K : Type} (os : K) : World K := ⟨fun _ => 0x90#8, os, []⟩

end Libdebug.Cffi
