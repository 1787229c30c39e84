import Libdebug.Cffi.Resume

/-!
`wait_all_and_update_regs`: wait for the first status, stop the threads that still
run, collect every further status, refresh the register files and take the traps
out of memory again. And the thread list it runs over.
-/

namespace Libdebug.Cffi

open Libdebug.Foundation

variable {K : Type} (k : Kernel K)

/-- The result is the address of the register file. -/
def registerThread (g : GlobalState) (w : World K) (tid : Int) : Ptr × GlobalState :=
  match g.tHead.find? (·.tid = tid) with
  | some t => (t.regs, g)
  | none =>
      let t := { tid, regs := g.fresh, signalToForward := 0 }
      let g := g.getregs k w tid g.fresh
      (t.regs, { g with tHead := t :: g.tHead, fresh := g.fresh + 1 })

def unregisterThread (g : GlobalState) (tid : Int) : GlobalState :=
  match g.tHead.find? (·.tid = tid) with
  | none => g
  | some t => { g with tHead := g.tHead.erase t, deadTHead := t :: g.deadTHead }

/-- Stop every registered thread that still runs. A thread whose `PTRACE_GETREGS`
succeeds is stopped already. The list under construction is `head :: older`; the
loop compares with its current head. A failed `waitpid` adds an entry with thread
id -1 and whatever the status variable holds. -/
def interruptThreads (pid : Int) : List Thread → Nat → ThreadStatus → List ThreadStatus →
    GlobalState → World K → List ThreadStatus × GlobalState × World K
  | [], _, head, older, g, w => (head :: older, g, w)
  | t :: rest, tempStatus, head, older, g, w =>
      if t.tid = head.tid then interruptThreads pid rest tempStatus head older g w
      else
        match k.getregs w.os t.tid with
        | some regs =>
            interruptThreads pid rest tempStatus head older (g.setFile t.regs regs) w
        | none =>
            let w := w.tgkill k pid t.tid SIGSTOP
            match w.waitpid k .waitAllAndUpdateRegs (.thread t.tid) false with
            | (some status, w) =>
                interruptThreads pid rest status.status status (head :: older) g w
            | (none, w) =>
                interruptThreads pid rest tempStatus ⟨-1, tempStatus, .unreported⟩
                  (head :: older) g w

/-- Keep polling without blocking; `none` means still polling when the fuel ran out. -/
def drainStatuses (pid : Int) : Nat → List ThreadStatus → World K →
    Option (List ThreadStatus) × World K
  | 0, _, w => (none, w)
  | fuel + 1, statuses, w =>
      match w.waitpid k .waitAllAndUpdateRegs (.group pid) true with
      | (none, w) => (some statuses, w)
      | (some status, w) => drainStatuses pid fuel (status :: statuses) w

inductive WaitOutcome where
  /-- still in the polling loop -/
  | polling
  /-- the first `waitpid` failed: `return NULL` -/
  | null
  | statuses (list : List ThreadStatus)

def waitAllAndUpdateRegs (fuel : Nat) (g : GlobalState) (w : World K) (pid : Int) :
    WaitOutcome × GlobalState × World K :=
  match w.waitpid k .waitAllAndUpdateRegs (.group pid) false with
  | (none, w) => (.null, g, w)
  | (some head, w) =>
      let (list, g, w) := interruptThreads k pid g.tHead 0 head [] g w
      match drainStatuses k pid fuel list w with
      | (none, w) => (.polling, g, w)
      | (some list, w) =>
          let g := g.tHead.foldl (fun g t => g.getregs k w t.tid t.regs) g
          (.statuses list, g, restoreBreakpoints g w)

end Libdebug.Cffi
