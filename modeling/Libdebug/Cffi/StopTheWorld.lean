import Libdebug.Cffi.History
import Libdebug.Foundation.Runs
import Mathlib.Logic.Relation

/-!
`wait_all_and_update_regs` while the threads go on: they stop, die and start new threads
between any two requests of the tracer. The kernel is here what it does to threads: whether
each one runs, is in a ptrace stop or is dead, and which status it has yet to report.

When the function returns its list, no registered thread runs, and the list is made of the
statuses that were reported meanwhile. Whatever kernel the function runs on, if its requests
do to the threads what they do here, it follows one of these interleavings.
-/

namespace Libdebug.Cffi

open Libdebug.Foundation

inductive Life where
  | running
  | stopped
  | dead
  deriving DecidableEq

/-- The threads, by their ids, which are positive. Ids that no thread has count as dead. A
thread that has stopped or died may have a status that `waitpid` has not returned yet, and
that status a cause. -/
structure Tracees where
  life : Int → Life
  unreported : Int → Option (Nat × StopCause)
  positive : ∀ tid ≤ 0, life tid = .dead ∧ unreported tid = none
  quiet : ∀ tid, life tid = .running → unreported tid = none

namespace Tracees

variable (tracees : Tracees)

/-- The thread changes its state, or `waitpid` returns its status. -/
def set (tid : Int) (life : Life) (unreported : Option (Nat × StopCause)) (positive : 0 < tid)
    (quiet : life = .running → unreported = none) : Tracees where
  life := Function.update tracees.life tid life
  unreported := Function.update tracees.unreported tid unreported
  positive other below := by
    have apart : other ≠ tid := by omega
    simpa [Function.update_of_ne apart] using tracees.positive other below
  quiet other := by
    by_cases same : other = tid
    · subst same
      simpa using quiet
    · simpa [Function.update_of_ne same] using tracees.quiet other

theorem positive_of_alive {tid : Int} (alive : tracees.life tid ≠ .dead) : 0 < tid := by
  by_contra below
  exact alive (tracees.positive tid (by omega)).1

theorem positive_of_unreported {tid : Int} {report : Nat × StopCause}
    (reports : tracees.unreported tid = some report) : 0 < tid := by
  by_contra below
  rw [(tracees.positive tid (by omega)).2] at reports
  cases reports

theorem halted_of_unreported {tid : Int} {report : Nat × StopCause}
    (reports : tracees.unreported tid = some report) : tracees.life tid ≠ .running := by
  intro running
  rw [tracees.quiet tid running] at reports
  cases reports

end Tracees

/-- What threads do of their own accord. -/
inductive OwnStep where
  /-- enter a ptrace stop -/
  | stop (tid : Int) (status : Nat) (cause : StopCause)
  | die (tid : Int) (status : Nat)
  /-- a new thread starts -/
  | clone (tid : Int)

/-- A stopped thread stays stopped, unless it is killed; and a new thread does not get the
id of a registered one. -/
def Tracees.own (threads : List Int) (tracees : Tracees) : OwnStep → Option Tracees
  | .stop tid status cause =>
      if running : tracees.life tid = .running then
        some (tracees.set tid .stopped (some (status, cause))
          (tracees.positive_of_alive (by simp [running])) (by simp))
      else none
  | .die tid status =>
      if alive : tracees.life tid ≠ .dead then
        some (tracees.set tid .dead (some (status, .death)) (tracees.positive_of_alive alive)
          (by simp))
      else none
  | .clone tid =>
      if new : 0 < tid ∧ tid ∉ threads ∧ tracees.life tid = .dead ∧
          tracees.unreported tid = none then
        some (tracees.set tid .running none new.1 fun _ => rfl)
      else none

/-- `waitpid` returns the status of the thread. -/
def Tracees.report (tracees : Tracees) (tid : Int) : Option (ThreadStatus × Tracees) :=
  match reports : tracees.unreported tid with
  | none => none
  | some (status, cause) =>
      some (⟨tid, status, cause⟩, tracees.set tid (tracees.life tid) none
        (tracees.positive_of_unreported reports) fun _ => rfl)

/-- Where the tracer is in `wait_all_and_update_regs`: the threads still to look at, the list
under construction, and the status variable. -/
inductive Tracer where
  /-- before `head->tid = waitpid(-getpgid(pid), &head->status, 0)` -/
  | first
  /-- at the head of the loop that interrupts the threads -/
  | checking (todo : List Int) (head : ThreadStatus) (older : List ThreadStatus) (temp : Nat)
  /-- before `tgkill(pid, t->tid, SIGSTOP)` -/
  | signalling (tid : Int) (todo : List Int) (head : ThreadStatus) (older : List ThreadStatus)
      (temp : Nat)
  /-- before `waitpid(t->tid, &temp_status, 0)` -/
  | waiting (tid : Int) (todo : List Int) (head : ThreadStatus) (older : List ThreadStatus)
      (temp : Nat)
  /-- before `waitpid(-getpgid(pid), &temp_status, WNOHANG)` -/
  | draining (list : List ThreadStatus)
  | returned (list : List ThreadStatus)
  /-- `return NULL` -/
  | null
  deriving DecidableEq

/-- What the kernel answers to the request of the tracer. -/
inductive Answer where
  /-- `waitpid` on the group returns the status of this thread -/
  | reports (tid : Int)
  /-- `waitpid` on the group returns no status -/
  | nothing
  /-- the request has only one answer -/
  | done

inductive Turn where
  | own (step : OwnStep)
  | tracer (answer : Answer)

structure Halting where
  tracees : Tracees
  tracer : Tracer
  /-- the statuses that the kernel has reported, newest first -/
  reported : List ThreadStatus

namespace Halting

def start (tracees : Tracees) : Halting := ⟨tracees, .first, []⟩

/-- The status of the thread is reported, and the tracer goes on. -/
def collect (s : Halting) (tid : Int) (next : ThreadStatus → Tracer) : Option Halting :=
  (s.tracees.report tid).map fun (status, tracees) =>
    ⟨tracees, next status, status :: s.reported⟩

def advance (threads : List Int) (s : Halting) : Answer → Option Halting
  | .reports tid =>
      match s.tracer with
      | .first => s.collect tid fun status => .checking threads status [] 0
      | .draining list => s.collect tid fun status => .draining (status :: list)
      | _ => none
  | .nothing =>
      match s.tracer with
      | .first => some { s with tracer := .null }
      | .draining list => some { s with tracer := .returned list }
      | _ => none
  | .done =>
      match s.tracer with
      | .checking [] head older _ => some { s with tracer := .draining (head :: older) }
      | .checking (tid :: rest) head older temp =>
          if tid = head.tid then some { s with tracer := .checking rest head older temp }
          -- `PTRACE_GETREGS` succeeds exactly on a stopped thread
          else if s.tracees.life tid = .stopped then
            some { s with tracer := .checking rest head older temp }
          else some { s with tracer := .signalling tid rest head older temp }
      | .signalling tid rest head older temp =>
          some { s with tracer := .waiting tid rest head older temp }
      | .waiting tid rest head older temp =>
          match s.tracees.unreported tid with
          | some _ => s.collect tid
              fun status => .checking rest status (head :: older) status.status
          | none =>
              -- `waitpid` blocks, unless there is nothing to wait for
              if s.tracees.life tid = .dead then
                some { s with
                  tracer := .checking rest ⟨-1, temp, .unreported⟩ (head :: older) temp }
              else none
      | _ => none

def step (threads : List Int) (s : Halting) : Turn → Option Halting
  | .own step => (s.tracees.own threads step).map ({ s with tracees := · })
  | .tracer answer => s.advance threads answer

end Halting

/-- The tracer and the threads take their turns in any order. -/
def halting (threads : List Int) : Machine Halting Turn := ⟨Halting.step threads⟩

/-! ### What each turn preserves -/

variable {threads : List Int} {tracees next : Tracees} {tid : Int} {s t : Halting}

/-- No registered thread but those still to look at runs. -/
def Tracees.HaltedBut (tracees : Tracees) (threads todo : List Int) : Prop :=
  ∀ tid ∈ threads, tid ∈ todo ∨ tracees.life tid ≠ .running

/-- The entries of the list that carry a status are those reported. -/
def Halting.Lists (s : Halting) (list : List ThreadStatus) : Prop :=
  list.filter (·.tid ≠ -1) = s.reported

def Halting.Inv (threads : List Int) (s : Halting) : Prop :=
  match s.tracer with
  | .first => s.reported = []
  | .checking todo head older _ =>
      s.Lists (head :: older) ∧ s.tracees.HaltedBut threads todo ∧
        (head.tid ∈ threads → s.tracees.life head.tid ≠ .running)
  | .signalling tid todo head older _ | .waiting tid todo head older _ =>
      s.Lists (head :: older) ∧ s.tracees.HaltedBut threads (tid :: todo)
  | .draining list | .returned list => s.Lists list ∧ s.tracees.HaltedBut threads []
  | .null => True

/-- A registered thread that does not run will not run of its own accord. -/
theorem own_halted {step : OwnStep} (stepped : tracees.own threads step = some next)
    (registered : tid ∈ threads) (halted : tracees.life tid ≠ .running) :
    next.life tid ≠ .running := by
  cases step with
  | stop other status cause =>
      simp only [Tracees.own] at stepped
      split at stepped
      · cases stepped
        by_cases same : tid = other
        · simp [Tracees.set, same]
        · simpa [Tracees.set, Function.update_of_ne same] using halted
      · cases stepped
  | die other status =>
      simp only [Tracees.own] at stepped
      split at stepped
      · cases stepped
        by_cases same : tid = other
        · simp [Tracees.set, same]
        · simpa [Tracees.set, Function.update_of_ne same] using halted
      · cases stepped
  | clone other =>
      simp only [Tracees.own] at stepped
      split at stepped
      · rename_i new
        cases stepped
        have apart : tid ≠ other := fun same => new.2.1 (same ▸ registered)
        simpa [Tracees.set, Function.update_of_ne apart] using halted
      · cases stepped

theorem inv_own {step : OwnStep} (inv : s.Inv threads)
    (stepped : s.tracees.own threads step = some next) :
    Halting.Inv threads { s with tracees := next } := by
  have halted {todo : List Int} (before : s.tracees.HaltedBut threads todo) :
      next.HaltedBut threads todo :=
    fun tid registered => (before tid registered).imp id (own_halted stepped registered)
  obtain ⟨tracees, tracer, reported⟩ := s
  cases tracer with
  | first => exact inv
  | checking todo head older temp =>
      obtain ⟨lists, before, settled⟩ := inv
      exact ⟨lists, halted before, fun registered =>
        own_halted stepped registered (settled registered)⟩
  | signalling | waiting | draining | returned =>
      obtain ⟨lists, before⟩ := inv
      exact ⟨lists, halted before⟩
  | null => trivial

theorem report_eq {status : ThreadStatus} (reports : tracees.report tid = some (status, next)) :
    status.tid = tid ∧ 0 < tid ∧ tracees.life tid ≠ .running ∧ next.life = tracees.life := by
  unfold Tracees.report at reports
  split at reports
  · cases reports
  · rename_i found
    cases reports
    refine ⟨rfl, tracees.positive_of_unreported found, tracees.halted_of_unreported found, ?_⟩
    simp [Tracees.set]

/-- A status that is reported is put in front of the list. -/
theorem lists_collect {step : ThreadStatus → Tracer} {list : List ThreadStatus}
    (lists : s.Lists list) (collected : s.collect tid step = some t) :
    ∃ status, t.tracer = step status ∧ t.Lists (status :: list) ∧ status.tid = tid ∧
      t.tracees.life = s.tracees.life ∧ t.tracees.life tid ≠ .running := by
  obtain ⟨⟨status, next⟩, reports, rfl⟩ := Option.map_eq_some_iff.mp collected
  obtain ⟨same, positive, halted, life⟩ := report_eq reports
  refine ⟨status, rfl, ?_, same, life, life ▸ halted⟩
  have carries : status.tid ≠ -1 := by omega
  simpa [Halting.Lists, carries] using lists

theorem haltedBut_of_life {todo : List Int} (same : next.life = tracees.life)
    (halted : tracees.HaltedBut threads todo) : next.HaltedBut threads todo := by
  intro tid registered
  rw [same]
  exact halted tid registered

/-- One thread less to look at. -/
theorem haltedBut_tail {todo : List Int} (halted : tracees.HaltedBut threads (tid :: todo))
    (settled : tid ∈ threads → tracees.life tid ≠ .running) : tracees.HaltedBut threads todo := by
  intro other registered
  rcases halted other registered with member | settled
  · rcases List.mem_cons.mp member with rfl | later
    · exact .inr (settled registered)
    · exact .inl later
  · exact .inr settled

theorem inv_reports {status : Int} (inv : s.Inv threads)
    (advanced : s.advance threads (.reports status) = some t) : t.Inv threads := by
  unfold Halting.advance at advanced
  cases at_ : s.tracer <;> simp only [at_] at advanced
  case first =>
      have none : s.reported = [] := by simpa only [Halting.Inv, at_] using inv
      have lists : s.Lists [] := none.symm
      obtain ⟨first, tracer, lists, tid, life, halted⟩ := lists_collect lists advanced
      simp only [Halting.Inv, tracer]
      exact ⟨lists, fun tid registered => .inl registered, fun _ => tid ▸ halted⟩
  case draining list =>
      obtain ⟨lists, halted⟩ : s.Lists list ∧ s.tracees.HaltedBut threads [] := by
        simpa only [Halting.Inv, at_] using inv
      obtain ⟨next, tracer, lists, -, life, -⟩ := lists_collect lists advanced
      simp only [Halting.Inv, tracer]
      exact ⟨lists, haltedBut_of_life life halted⟩
  all_goals cases advanced

theorem inv_nothing (inv : s.Inv threads) (advanced : s.advance threads .nothing = some t) :
    t.Inv threads := by
  unfold Halting.advance at advanced
  cases at_ : s.tracer <;> simp only [at_] at advanced
  case first =>
      cases advanced
      trivial
  case draining list =>
      obtain ⟨lists, halted⟩ : s.Lists list ∧ s.tracees.HaltedBut threads [] := by
        simpa only [Halting.Inv, at_] using inv
      cases advanced
      exact ⟨lists, halted⟩
  all_goals cases advanced

theorem inv_done (inv : s.Inv threads) (advanced : s.advance threads .done = some t) :
    t.Inv threads := by
  unfold Halting.advance at advanced
  cases at_ : s.tracer with
  | checking todo head older temp =>
      obtain ⟨lists, halted, settled⟩ : s.Lists (head :: older) ∧
          s.tracees.HaltedBut threads todo ∧
          (head.tid ∈ threads → s.tracees.life head.tid ≠ .running) := by
        simpa only [Halting.Inv, at_] using inv
      cases todo with
      | nil =>
          simp only [at_] at advanced
          cases advanced
          exact ⟨lists, halted⟩
      | cons tid rest =>
          simp only [at_] at advanced
          split at advanced
          · rename_i same
            cases advanced
            exact ⟨lists, haltedBut_tail halted (same ▸ settled), settled⟩
          · split at advanced
            · rename_i stopped
              cases advanced
              exact ⟨lists, haltedBut_tail halted fun _ => by simp [stopped], settled⟩
            · cases advanced
              exact ⟨lists, halted⟩
  | signalling tid rest head older temp =>
      obtain ⟨lists, halted⟩ : s.Lists (head :: older) ∧
          s.tracees.HaltedBut threads (tid :: rest) := by
        simpa only [Halting.Inv, at_] using inv
      simp only [at_] at advanced
      cases advanced
      exact ⟨lists, halted⟩
  | waiting tid rest head older temp =>
      obtain ⟨lists, halted⟩ : s.Lists (head :: older) ∧
          s.tracees.HaltedBut threads (tid :: rest) := by
        simpa only [Halting.Inv, at_] using inv
      simp only [at_] at advanced
      split at advanced
      · obtain ⟨status, tracer, lists, same, life, stopped⟩ := lists_collect lists advanced
        simp only [Halting.Inv, tracer]
        refine ⟨lists, haltedBut_tail (haltedBut_of_life life halted) fun _ => stopped, ?_⟩
        exact fun _ => same ▸ stopped
      · split at advanced
        · rename_i dead
          cases advanced
          refine ⟨lists, haltedBut_tail halted fun _ => by simp [dead], fun _ => ?_⟩
          simp [(s.tracees.positive (-1) (by omega)).1]
        · cases advanced
  | first | draining | returned | null => simp [at_] at advanced

theorem inv_step {turn : Turn} (inv : s.Inv threads)
    (stepped : (halting threads).step s turn = some t) : t.Inv threads := by
  cases turn with
  | own step =>
      obtain ⟨next, own, rfl⟩ := Option.map_eq_some_iff.mp stepped
      exact inv_own inv own
  | tracer answer =>
      cases answer with
      | reports tid => exact inv_reports inv stepped
      | nothing => exact inv_nothing inv stepped
      | done => exact inv_done inv stepped

/-- Whenever the list has been returned, no registered thread runs, and the entries that
carry a status are exactly the statuses reported during the call, each as often. -/
theorem world_stopped {list : List ThreadStatus} {turns : List Turn}
    (reached : (halting threads).run (.start tracees) turns = some s)
    (returned : s.tracer = .returned list) :
    (∀ tid ∈ threads, s.tracees.life tid ≠ .running) ∧
      list.filter (·.tid ≠ -1) = s.reported := by
  have initial : Halting.Inv threads (.start tracees) := rfl
  have inv : s.Inv threads :=
    Machine.run_invariant (fun _ _ _ inv _ stepped => inv_step inv stepped) initial
      Machine.meets_always reached
  simp only [Halting.Inv, returned] at inv
  refine ⟨fun tid registered => ?_, inv.1⟩
  exact (inv.2 tid registered).resolve_left List.not_mem_nil

/-- Threads 1 and 2 run. -/
def bothRunning : Tracees where
  life tid := if tid = 1 ∨ tid = 2 then .running else .dead
  unreported _ := none
  positive tid below := by
    have others : ¬ (tid = 1 ∨ tid = 2) := by omega
    simp [others]
  quiet _ _ := rfl

/-- Thread 1 stops with a trap; thread 2 stops when it has been sent a `SIGSTOP`, and a new
thread starts meanwhile. -/
def secondThreadStops : List Turn :=
  [.own (.stop 1 0x057f .softwareTrap), .tracer (.reports 1), .tracer .done, .tracer .done,
    .own (.clone 3), .tracer .done, .own (.stop 2 0x137f .tracerStop), .tracer .done,
    .tracer .done, .tracer .nothing]

theorem second_thread_stopped :
    ∃ s, (halting [1, 2]).run (.start bothRunning) secondThreadStops = some s ∧
      (∀ tid ∈ [1, 2], s.tracees.life tid ≠ .running) ∧
      [⟨2, 0x137f, .tracerStop⟩, ⟨1, 0x057f, .softwareTrap⟩].filter (·.tid ≠ -1) = s.reported := by
  obtain ⟨s, reached, returned⟩ : ∃ s,
      (halting [1, 2]).run (.start bothRunning) secondThreadStops = some s ∧
        s.tracer = .returned [⟨2, 0x137f, .tracerStop⟩, ⟨1, 0x057f, .softwareTrap⟩] :=
    Machine.exists_of_run (by decide)
  exact ⟨s, reached, world_stopped reached returned⟩

/-! ### The function as one of the interleavings -/

/-- The threads go on by themselves from one state to the other. -/
def GoOn (threads : List Int) : Tracees → Tracees → Prop :=
  Relation.ReflTransGen fun before after => ∃ step, before.own threads step = some after

/-- The kernel does to the threads what it does in an interleaving. During every request the
threads may go on, before and after it takes effect. -/
structure Kernel.Halts {K : Type} (k : Kernel K) (threads : List Int) (view : K → Tracees) :
    Prop where
  getregs : ∀ os tid, (k.getregs os tid).isSome ↔ (view os).life tid = .stopped
  tgkill : ∀ os pid tid signal, GoOn threads (view os) (view (k.tgkill os pid tid signal))
  /-- `waitpid` returns a status that has not been reported, of the thread it waits for -/
  reports : ∀ {mem os target nohang status mem' os'},
    k.waitpid mem os target nohang = (some status, mem', os') →
      (∀ tid, target = .thread tid → status.tid = tid) ∧
        ∃ before after, GoOn threads (view os) before ∧
          before.report status.tid = some (status, after) ∧ GoOn threads after (view os')
  /-- blocking on one thread it fails only if the thread is dead and has been reported so -/
  fails : ∀ {mem os tid mem' os'},
    k.waitpid mem os (.thread tid) false = (none, mem', os') →
      ∃ middle, GoOn threads (view os) middle ∧ middle.life tid = .dead ∧
        middle.unreported tid = none ∧ GoOn threads middle (view os')
  nothing : ∀ {mem os pid nohang mem' os'},
    k.waitpid mem os (.group pid) nohang = (none, mem', os') → GoOn threads (view os) (view os')

/-- Some turns lead from one state to the other. -/
def LeadsTo (threads : List Int) (s t : Halting) : Prop :=
  ∃ turns, (halting threads).run s turns = some t

theorem LeadsTo.refl : LeadsTo threads s s := ⟨[], rfl⟩

theorem LeadsTo.trans {r : Halting} (first : LeadsTo threads s t) (second : LeadsTo threads t r) :
    LeadsTo threads s r := by
  obtain ⟨turns, first⟩ := first
  obtain ⟨others, second⟩ := second
  refine ⟨turns ++ others, ?_⟩
  rw [Machine.run_append, first]
  exact second

theorem LeadsTo.turn (turn : Turn) (stepped : s.step threads turn = some t) :
    LeadsTo threads s t :=
  ⟨[turn], Machine.run_cons stepped⟩

/-- The threads go on while the tracer is in a request. -/
theorem leadsTo_of_goOn (goes : GoOn threads tracees next) (tracer : Tracer)
    (reported : List ThreadStatus) :
    LeadsTo threads ⟨tracees, tracer, reported⟩ ⟨next, tracer, reported⟩ := by
  induction goes with
  | refl => exact LeadsTo.refl
  | tail _ step ih =>
      obtain ⟨step, own⟩ := step
      refine ih.trans (LeadsTo.turn (.own step) ?_)
      simp only [Halting.step, own, Option.map_some]

section Refinement

variable {K : Type} {k : Kernel K} {view : K → Tracees} {w next : World K} {g g' : GlobalState}
  {pid : Int} {reported : List ThreadStatus}

theorem waitpid_answer {site : WaitSite} {target : Target} {nohang : Bool}
    {answer : Option ThreadStatus} (waited : w.waitpid k site target nohang = (answer, next)) :
    ∃ mem, k.waitpid w.mem w.os target nohang = (answer, mem, next.os) := by
  unfold World.waitpid at waited
  split at waited
  · rename_i mem os asked
    cases waited
    exact ⟨mem, asked⟩
  · rename_i status mem os asked
    cases waited
    exact ⟨mem, asked⟩

/-- `waitpid` returns a status: the threads go on, it is reported, and they go on. -/
theorem leadsTo_of_reports (halts : k.Halts threads view) {site : WaitSite} {target : Target}
    {nohang : Bool} {status : ThreadStatus}
    (waited : w.waitpid k site target nohang = (some status, next)) (tracer : Tracer)
    (after : ThreadStatus → Tracer)
    (collects : ∀ before : Tracees, before.unreported status.tid ≠ none →
      ∃ answer, Halting.advance threads ⟨before, tracer, reported⟩ answer =
        Halting.collect ⟨before, tracer, reported⟩ status.tid after) :
    LeadsTo threads ⟨view w.os, tracer, reported⟩
      ⟨view next.os, after status, status :: reported⟩ := by
  obtain ⟨mem, asked⟩ := waitpid_answer waited
  obtain ⟨-, before, reaped, goes, reports, goesOn⟩ := halts.reports asked
  have unreported : before.unreported status.tid ≠ none := by
    intro absent
    unfold Tracees.report at reports
    split at reports
    · cases reports
    · rename_i found
      rw [absent] at found
      cases found
  obtain ⟨answer, advances⟩ := collects before unreported
  have collected : Halting.step threads ⟨before, tracer, reported⟩ (.tracer answer) =
      some ⟨reaped, after status, status :: reported⟩ := by
    rw [Halting.step, advances, Halting.collect, reports]
    rfl
  apply (leadsTo_of_goOn goes tracer reported).trans
  exact (LeadsTo.turn _ collected).trans (leadsTo_of_goOn goesOn _ _)

theorem advance_waiting {before : Tracees} {rest : List Int} {head : ThreadStatus}
    {older : List ThreadStatus} {temp : Nat} (unreported : before.unreported tid ≠ none) :
    Halting.advance threads ⟨before, .waiting tid rest head older temp, reported⟩ .done =
      Halting.collect ⟨before, .waiting tid rest head older temp, reported⟩ tid
        fun status => .checking rest status (head :: older) status.status := by
  obtain ⟨report, found⟩ := Option.ne_none_iff_exists'.mp unreported
  simp only [Halting.advance, found]

/-- A thread that is found running is signalled and waited for. -/
theorem leadsTo_waiting (pid : Int) (reported : List ThreadStatus)
    (halts : k.Halts threads view) (t : Thread) (rest : List Int) (head : ThreadStatus)
    (older : List ThreadStatus) (temp : Nat) (other : t.tid ≠ head.tid)
    (running : k.getregs w.os t.tid = none) :
    LeadsTo threads ⟨view w.os, .checking (t.tid :: rest) head older temp, reported⟩
      ⟨view (w.tgkill k pid t.tid SIGSTOP).os, .waiting t.tid rest head older temp, reported⟩ := by
  have unstopped : (view w.os).life t.tid ≠ .stopped := by
    rw [Ne, ← halts.getregs, running]
    simp
  have checked : Halting.step threads
      ⟨view w.os, .checking (t.tid :: rest) head older temp, reported⟩ (.tracer .done) =
        some ⟨view w.os, .signalling t.tid rest head older temp, reported⟩ := by
    simp only [Halting.step, Halting.advance, if_neg other, if_neg unstopped]
  have signalled : Halting.step threads
      ⟨view w.os, .signalling t.tid rest head older temp, reported⟩ (.tracer .done) =
        some ⟨view w.os, .waiting t.tid rest head older temp, reported⟩ := rfl
  apply (LeadsTo.turn _ checked).trans
  exact (LeadsTo.turn _ signalled).trans (leadsTo_of_goOn (halts.tgkill _ _ _ _) _ _)

/-- The loop that interrupts the threads. -/
theorem interruptThreads_leadsTo (reported : List ThreadStatus)
    (halts : k.Halts threads view) (todo : List Thread) (temp : Nat)
    (head : ThreadStatus) (older list : List ThreadStatus)
    (interrupted : interruptThreads k pid todo temp head older g w = (list, g', next)) :
    ∃ reported', LeadsTo threads
      ⟨view w.os, .checking (todo.map (·.tid)) head older temp, reported⟩
      ⟨view next.os, .draining list, reported'⟩ := by
  induction todo generalizing temp head older g w reported with
  | nil =>
      cases interrupted
      exact ⟨reported, LeadsTo.turn (.tracer .done) rfl⟩
  | cons t rest ih =>
      simp only [interruptThreads] at interrupted
      rw [List.map_cons]
      split at interrupted
      · rename_i same
        obtain ⟨reported', leads⟩ := ih reported temp head older interrupted
        refine ⟨reported', LeadsTo.trans (LeadsTo.turn (.tracer .done) ?_) leads⟩
        simp only [Halting.step, Halting.advance, if_pos same]
      · rename_i other
        split at interrupted
        · rename_i regs read
          obtain ⟨reported', leads⟩ := ih reported temp head older interrupted
          refine ⟨reported', LeadsTo.trans (LeadsTo.turn (.tracer .done) ?_) leads⟩
          have stopped : (view w.os).life t.tid = .stopped := by
            rw [← halts.getregs, read]
            rfl
          simp only [Halting.step, Halting.advance, if_neg other, if_pos stopped]
        · rename_i running
          have waiting := leadsTo_waiting pid reported halts t (rest.map (·.tid)) head older temp
            other running
          split at interrupted
          · rename_i status _ waited
            obtain ⟨mem, asked⟩ := waitpid_answer waited
            have same : status.tid = t.tid := (halts.reports asked).1 t.tid rfl
            obtain ⟨reported', leads⟩ := ih (status :: reported) status.status status
              (head :: older) interrupted
            refine ⟨reported', waiting.trans (LeadsTo.trans ?_ leads)⟩
            apply leadsTo_of_reports halts waited _ fun status =>
              .checking (rest.map (·.tid)) status (head :: older) status.status
            intro before unreported
            rw [same] at unreported ⊢
            exact ⟨.done, advance_waiting unreported⟩
          · rename_i waited
            obtain ⟨mem, asked⟩ := waitpid_answer waited
            obtain ⟨middle, goes, dead, nothing, goesOn⟩ := halts.fails asked
            obtain ⟨reported', leads⟩ := ih reported temp ⟨-1, temp, .unreported⟩
              (head :: older) interrupted
            have failed : Halting.step threads
                ⟨middle, .waiting t.tid (rest.map (·.tid)) head older temp, reported⟩
                (.tracer .done) = some ⟨middle, .checking (rest.map (·.tid))
                  ⟨-1, temp, .unreported⟩ (head :: older) temp, reported⟩ := by
              simp only [Halting.step, Halting.advance, nothing, if_pos dead]
            refine ⟨reported', waiting.trans (LeadsTo.trans ?_ leads)⟩
            apply (leadsTo_of_goOn goes _ _).trans
            exact (LeadsTo.turn _ failed).trans (leadsTo_of_goOn goesOn _ _)

/-- The loop that polls without blocking. -/
theorem drainStatuses_leadsTo (reported : List ThreadStatus)
    (halts : k.Halts threads view) (fuel : Nat)
    (statuses list : List ThreadStatus)
    (drained : drainStatuses k pid fuel statuses w = (some list, next)) :
    ∃ reported', LeadsTo threads ⟨view w.os, .draining statuses, reported⟩
      ⟨view next.os, .returned list, reported'⟩ := by
  induction fuel generalizing statuses w reported with
  | zero => cases drained
  | succ fuel ih =>
      simp only [drainStatuses] at drained
      split at drained
      · rename_i waited
        cases drained
        obtain ⟨mem, asked⟩ := waitpid_answer waited
        refine ⟨reported, LeadsTo.trans (LeadsTo.turn (.tracer .nothing) rfl) ?_⟩
        exact leadsTo_of_goOn (halts.nothing asked) _ _
      · rename_i status _ waited
        obtain ⟨reported', leads⟩ := ih (status :: reported) _ drained
        refine ⟨reported', LeadsTo.trans ?_ leads⟩
        apply leadsTo_of_reports halts waited _ fun status => .draining (status :: statuses)
        exact fun before _ => ⟨.reports status.tid, rfl⟩

/-- When the function returns a list it has followed an interleaving that returns this list
and ends with the threads as they are then. -/
theorem waitAllAndUpdateRegs_leadsTo {fuel : Nat} {list : List ThreadStatus}
    (halts : k.Halts (g.tHead.map (·.tid)) view)
    (returned : waitAllAndUpdateRegs k fuel g w pid = (.statuses list, g', next)) :
    ∃ reported, LeadsTo (g.tHead.map (·.tid)) (.start (view w.os))
      ⟨view next.os, .returned list, reported⟩ := by
  unfold waitAllAndUpdateRegs at returned
  rcases first : w.waitpid k .waitAllAndUpdateRegs (.group pid) false with ⟨_ | head, w₁⟩ <;>
    rw [first] at returned
  · cases returned
  · rcases interrupted : interruptThreads k pid g.tHead 0 head [] g w₁ with ⟨begun, g₂, w₂⟩
    rcases drained : drainStatuses k pid fuel begun w₂ with ⟨_ | finished, w₃⟩ <;>
      simp only [interrupted, drained] at returned
    · cases returned
    · have heard : LeadsTo (g.tHead.map (·.tid)) (.start (view w.os))
          ⟨view w₁.os, .checking (g.tHead.map (·.tid)) head [] 0, [head]⟩ := by
        apply leadsTo_of_reports halts first _ fun status =>
          .checking (g.tHead.map (·.tid)) status [] 0
        exact fun before _ => ⟨.reports head.tid, rfl⟩
      obtain ⟨interim, interrupts⟩ := interruptThreads_leadsTo [head] halts g.tHead 0 head []
        begun interrupted
      obtain ⟨reported, drains⟩ := drainStatuses_leadsTo interim halts fuel begun finished
        drained
      have leads := heard.trans (interrupts.trans drains)
      cases returned
      rw [restoreBreakpoints_eq]
      exact ⟨reported, leads⟩

/-- So no registered thread runs when the function returns a list. -/
theorem waitAllAndUpdateRegs_stops {fuel : Nat} {list : List ThreadStatus}
    (halts : k.Halts (g.tHead.map (·.tid)) view)
    (returned : waitAllAndUpdateRegs k fuel g w pid = (.statuses list, g', next)) :
    ∀ t ∈ g.tHead, (view next.os).life t.tid ≠ .running := by
  obtain ⟨reported, turns, reached⟩ := waitAllAndUpdateRegs_leadsTo halts returned
  intro t registered
  exact (world_stopped reached rfl).1 t.tid (List.mem_map_of_mem registered)

end Refinement

end Libdebug.Cffi
