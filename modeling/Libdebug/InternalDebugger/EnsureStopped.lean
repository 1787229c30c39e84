import Libdebug.InternalDebugger.Lifecycle
import Libdebug.Foundation.Effects

/-!
When the process can be stopped.

`_ensure_process_stopped` waits for the command that the polling thread is executing, and
raises what that command raised. With `auto_interrupt_on_command` it sends a signal first;
where that fails, or the first thread is dead, it raises without reading the queue, and what
is left unread there keeps the polling thread from ever taking another command.

`stoppable_iff` says for every state found between two calls when the check returns, or raises
what `kill` catches, and leaves nothing unread.
-/

namespace Libdebug.InternalDebugger.Lifecycle

open Libdebug.Foundation Libdebug.Ptrace Libdebug.Utils

variable {setup : Setup} {s t : Parent}

/-! ### The condition -/

def Process.reachable (gone : Bool) : Process → Bool
  | .alive | .zombie => !gone
  | .none | .reaped => false

/-- A signal reaches the process. -/
def Parent.signalled (s : Parent) (answers : Answers) : Bool := s.process.reachable answers.gone

/-- The wait ends, and what it raises is caught, and satisfies a condition. -/
def EndsCaught (setup : Setup) (answers : Answers) (also : Fate → Prop) : Prop :=
  match answers.endings with
  | some ending :: _ => ∀ error ∈ ending.raised, setup.catches error = true ∧ also ending.fate
  | _ => False

/-- A process that counts as running can be stopped, and no exception gets in the way. -/
def Stoppable (setup : Setup) (s : Parent) (answers : Answers) : Prop :=
  s.isRunning = true →
    match s.response, s.commands with
    | some error, _ =>
        -- an exception is waiting: it is read, and caught
        setup.catches error = true ∧
          (setup.autoInterruptOnCommand = true → s.leader = some false ∧ s.signalled answers = true)
    | none, _ :: _ =>
        -- a wait is under way
        EndsCaught setup answers fun fate =>
          setup.autoInterruptOnCommand = true →
            s.signalled answers = true ∧ (answers.lag ≤ 2 → fate = .survives)
    | none, [] =>
        -- the flag has been left set; `interrupt` waits once more
        setup.autoInterruptOnCommand = true → s.instanced = true →
          s.leader ≠ none ∧
            (s.leader = some false → s.signalled answers = true →
              EndsCaught setup answers fun _ => True)

/-! ### What the commands leave alone -/

def Process.present : Process → Bool
  | .none => false
  | .alive | .zombie | .reaped => true

@[simp] theorem present_reap (process : Process) : process.reap.present = process.present := by
  cases process <;> rfl

/-- What only `run`, `attach` and `kill` change. -/
structure Custody where
  instanced : Bool
  hasThreads : Bool
  hasProcess : Bool
  launched : Bool
  pipeManager : Option Pipes
  descriptors : Dict Nat Owner
  runs : Nat
  closings : List (Nat × PipeEnd)

def Parent.custody (s : Parent) : Custody where
  instanced := s.instanced
  hasThreads := s.leader.isSome
  hasProcess := s.process.present
  launched := s.launched
  pipeManager := s.pipeManager
  descriptors := s.descriptors
  runs := s.runs
  closings := s.closings

def startsProcess : Command → Bool
  | .run | .attach => true
  | _ => false

@[simp] theorem custody_suffer (fate : Fate) : (s.suffer fate).custody = s.custody := by
  cases fate <;> simp [Parent.suffer, Parent.custody]

theorem custody_ended {returned : Ending → Parent → Parent} (executed : s.ended returned = some t)
    (kept : ∀ ending t, (returned ending t).custody = t.custody) : t.custody = s.custody := by
  unfold Parent.ended at executed
  split at executed
  · obtain rfl := Option.some.inj executed
    dsimp only
    split
    · rw [kept]
      rfl
    · rfl
  · cases executed

theorem custody_collects {returned : Parent → Parent} (executed : s.collects returned = some t)
    (kept : ∀ t, (returned t).custody = t.custody) : t.custody = s.custody := by
  unfold Parent.collects at executed
  split at executed
  · rename_i ending rest _
    obtain rfl := Option.some.inj executed
    have suffered : (({ s with answers := { s.answers with endings := rest } } : Parent).suffer
        ending.fate).custody = s.custody := custody_suffer _
    dsimp only
    split
    · rw [kept, suffered]
    · exact suffered
  · cases executed

theorem custody_waitProcess (executed : s.waitProcess = some t) : t.custody = s.custody := by
  unfold Parent.waitProcess at executed
  split at executed
  · obtain rfl := Option.some.inj executed
    rfl
  · obtain rfl := Option.some.inj executed
    rfl
  · exact custody_collects executed fun _ => rfl

theorem custody_killProcess : s.killProcess.custody = s.custody := by
  unfold Parent.killProcess
  split
  · simp [Parent.custody]
  · rfl
  · rfl
  all_goals
    rename_i process
    split
    · simp [Parent.custody, process, Process.present]
    · simp [Parent.custody, Parent.respond, process, Process.present]

theorem custody_execute {command : Command} (executed : s.execute command = some t)
    (continues : startsProcess command = false) : t.custody = s.custody := by
  cases command with
  | run | attach => cases continues
  | gdb | migrateFromGdb | terminate => cases executed
  | kill =>
      obtain rfl := Option.some.inj executed
      exact custody_killProcess
  | wait => exact custody_waitProcess executed
  | stepUntil | finish =>
      simp only [Parent.execute] at executed
      exact custody_collects executed fun _ => rfl
  | cont =>
      simp only [Parent.execute] at executed
      exact (custody_ended executed fun _ _ => rfl).trans rfl
  | detach | step | breakpoint | catchSignal | handleSyscall | unhandleSyscall | peekMemory
  | pokeMemory =>
      simp only [Parent.execute] at executed
      exact custody_ended executed fun _ _ => rfl

theorem custody_progress {commands : List Command}
    (continues : ∀ command ∈ commands, startsProcess command = false) :
    (s.progress commands).custody = s.custody := by
  induction commands generalizing s with
  | nil => rfl
  | cons command rest ih =>
      obtain ⟨here, later⟩ := List.forall_mem_cons.mp continues
      rw [Parent.progress]
      split
      · rename_i t _ executed
        exact (ih later).trans (custody_execute executed here)
      · rfl

/-- What is left in the queue was there before. -/
theorem commands_progress {commands : List Command} {command : Command}
    (left : command ∈ (s.progress commands).commands) : command ∈ commands := by
  induction commands generalizing s with
  | nil => exact left
  | cons first rest ih =>
      rw [Parent.progress] at left
      split at left
      · exact List.mem_cons_of_mem _ (ih left)
      · exact left

/-- No process is started by what is queued. -/
def Parent.Continues (s : Parent) : Prop := ∀ command ∈ s.commands, startsProcess command = false

/-- As long as no process is started, custody is left alone. -/
def LeavesCustody (s t : Parent) : Prop := s.Continues → t.Continues ∧ t.custody = s.custody

instance : IsPreorder Parent LeavesCustody where
  refl _ continues := ⟨continues, rfl⟩
  trans _ _ _ first second continues :=
    have ⟨middle, same⟩ := first continues
    have ⟨final, again⟩ := second middle
    ⟨final, again.trans same⟩

theorem leavesCustody_progress : LeavesCustody s (s.progress s.commands) := fun continues =>
  ⟨fun _ left => continues _ (commands_progress left), custody_progress continues⟩

theorem raise_leaves (error : PyError) : Keeps LeavesCustody (raise error) := Keeps.throw _

theorem put_leaves {command : Command} (continues : startsProcess command = false) :
    Keeps LeavesCustody (put command) :=
  Keeps.modify fun s before => by
    refine ⟨fun other queued => ?_, rfl⟩
    rcases List.mem_append.mp queued with old | new
    · exact before other old
    · rw [List.mem_singleton.mp new]
      exact continues

theorem stateAfter_join : stateAfter join s = s.progress s.commands := by
  by_cases drained : (s.progress s.commands).commands = [] <;>
    simp [stateAfter, join, EStateM.run, drained]

theorem join_leaves : Keeps LeavesCustody join := fun _ =>
  stateAfter_join ▸ leavesCustody_progress

theorem joinAndCheckStatus_leaves : Keeps LeavesCustody joinAndCheckStatus := by
  refine join_leaves.bind fun _ => Keeps.get_bind fun s => ?_
  split
  · exact Keeps.pure _ _
  · refine Keeps.bind (Keeps.modify fun s => ?_) (fun _ => raise_leaves _) s
    exact fun continues => ⟨continues, rfl⟩

theorem look_leaves : Keeps LeavesCustody look := by
  refine Keeps.bind (Keeps.modify fun s => ?_) fun _ => Keeps.get
  split
  · exact leavesCustody_progress
  · exact fun continues => ⟨continues, rfl⟩

theorem firstThreadDead_leaves : Keeps LeavesCustody firstThreadDead := by
  refine look_leaves.bind fun seen => ?_
  split
  · exact Keeps.throw _
  · exact Keeps.pure _

theorem checkInstanced_leaves (message : String) : Keeps LeavesCustody (checkInstanced message) :=
  Keeps.get_bind fun s => Keeps.ite (fun _ => raise_leaves _) (fun _ => Keeps.pure _) s

theorem wait_leaves : Keeps LeavesCustody wait := by
  refine (checkInstanced_leaves _).bind fun _ => joinAndCheckStatus_leaves.bind fun _ =>
    firstThreadDead_leaves.bind fun dead => look_leaves.bind fun seen =>
    Keeps.ite (fun _ => Keeps.pure _) fun _ => ?_
  exact (put_leaves rfl).bind fun _ => joinAndCheckStatus_leaves

theorem signal_leaves : Keeps LeavesCustody signal :=
  Keeps.get_bind fun s => Keeps.ite (fun _ => raise_leaves _) (fun _ => Keeps.pure _) s

theorem interrupt_leaves : Keeps LeavesCustody interrupt := by
  have signals : Keeps LeavesCustody (do
      if !(← look).isRunning then pure ()
      else
        signal
        wait) := by
    refine look_leaves.bind fun seen => Keeps.ite (fun _ => Keeps.pure _) fun _ => ?_
    exact signal_leaves.bind fun _ => wait_leaves
  exact (checkInstanced_leaves _).bind fun _ => firstThreadDead_leaves.bind fun dead =>
    Keeps.ite (fun _ => (raise_leaves _).bind fun _ => signals) fun _ => signals

theorem ensureProcessStopped_leaves : Keeps LeavesCustody (ensureProcessStopped setup) := by
  refine look_leaves.bind fun seen => Keeps.ite (fun _ => Keeps.pure _) fun _ => ?_
  exact Keeps.ite (fun _ => interrupt_leaves.bind fun _ => joinAndCheckStatus_leaves)
    fun _ => joinAndCheckStatus_leaves

/-! ### The queue -/

/-- Nothing is left to execute or to read. -/
def Parent.Idle (s : Parent) : Prop := s.commands = [] ∧ s.response = none

/-- How the queues are found between two calls -/
structure Tidy (s : Parent) : Prop where
  queue : s.commands = [] ∨
    s.commands = [.wait] ∧ s.isRunning = true ∧ s.response = none ∧ s.leader = some false
  unread : s.response ≠ none → s.isRunning = true
  finished : s.instanced = false → s.Idle

/-- The commands that are left end, and raise nothing. -/
def Parent.Drains (s : Parent) : Prop := s.response = none ∧
  (s.commands = [] ∨ s.commands = [.wait] ∧ s.leader = some false ∧
    ∃ fate rest, s.answers.endings = some ⟨fate, none⟩ :: rest)

/-- What the main thread sees when it looks -/
def Parent.seen (s : Parent) : Parent :=
  match s.answers.lag with
  | 0 => s.progress s.commands
  | lag + 1 => { s with answers := { s.answers with lag } }

@[simp] theorem run_look : look.run s = .ok s.seen s.seen := rfl

@[simp] theorem run_raise (error : PyError) : (raise error).run s = .error (.raised error) s := rfl

@[simp] theorem run_put (command : Command) :
    (put command).run s = .ok () { s with commands := s.commands ++ [command] } := rfl

@[simp] theorem run_join : join.run s =
    if (s.progress s.commands).commands = [] then .ok () (s.progress s.commands)
    else .error .hang (s.progress s.commands) := rfl

@[simp] theorem run_checkInstanced (message : String) : (checkInstanced message).run s =
    if s.instanced then .ok () s else .error (.raised (.runtimeError message)) s := by
  cases instanced : s.instanced <;>
    simp [checkInstanced, EStateM.run_bind, EStateM.run_get, instanced, run_raise]

@[simp] theorem run_firstThreadDead : firstThreadDead.run s =
    match s.seen.leader with
    | none => .error (.raised .indexError) s.seen
    | some dead => .ok dead s.seen := by
  cases leader : s.seen.leader <;>
    simp [firstThreadDead, EStateM.run_bind, leader]
  rfl

@[simp] theorem run_signal : signal.run s =
    if s.signalled s.answers then .ok () s else .error (.raised (.osError 3)) s := by
  cases gone : s.answers.gone <;> cases process : s.process <;>
    simp [signal, EStateM.run_bind, EStateM.run_get, gone, process, Parent.signalled,
      Process.reachable]

/-- Joined and checked, the queues are idle. -/
@[simp] theorem run_joinAndCheckStatus : joinAndCheckStatus.run s =
    if (s.progress s.commands).commands = [] then
      match (s.progress s.commands).response with
      | none => .ok () (s.progress s.commands)
      | some error => .error (.raised error) { s.progress s.commands with response := none }
    else .error .hang (s.progress s.commands) := by
  by_cases drained : (s.progress s.commands).commands = []
  · cases response : (s.progress s.commands).response <;>
      simp [joinAndCheckStatus, EStateM.run_bind, run_join, drained, response, run_raise,
        EStateM.run_modify]
  · simp [joinAndCheckStatus, EStateM.run_bind, run_join, drained]

/-- While the queue is empty, nothing changes under the main thread. -/
theorem seen_of_empty (empty : s.commands = []) :
    s.seen = { s with answers := { s.answers with lag := s.answers.lag - 1 } } := by
  obtain ⟨_, _, _, _, _, _, _, _, _, _, _, _, ⟨lag, _, _, _, _, _, _, _, _⟩⟩ := s
  cases empty
  cases lag <;> rfl

theorem seen_of_lag_zero (now : s.answers.lag = 0) : s.seen = s.progress s.commands := by
  simp [Parent.seen, now]

theorem seen_of_lag_pos (later : 0 < s.answers.lag) :
    s.seen = { s with answers := { s.answers with lag := s.answers.lag - 1 } } := by
  obtain ⟨lag, same⟩ := Nat.exists_eq_add_of_lt later
  simp [Parent.seen, same]

theorem progress_of_empty (empty : s.commands = []) : s.progress s.commands = s := by
  obtain ⟨_, _, _, _, _, _, _, _, _, _, _, _, _⟩ := s
  cases empty
  rfl

@[simp] theorem run_catching (p : Life Unit) : (catching setup p).run s =
    match p.run s with
    | .error (.raised error) t =>
        if setup.catches error then .ok () t else .error (.raised error) t
    | ended => ended := rfl

/-- The check of `kill` gets over with, and what is left ends. -/
def Stops (setup : Setup) (s : Parent) : Prop :=
  ∃ t, (catching setup (ensureProcessStopped setup)).run s = .ok () t ∧ t.Drains

theorem stops_of_still (tidy : Tidy s) (still : s.isRunning = false) : Stops setup s := by
  have empty : s.commands = [] := by
    rcases tidy.queue with empty | ⟨-, running, -⟩
    · exact empty
    · exact absurd running (by simp [still])
  have read : s.response = none := by
    by_contra unread
    exact absurd (tidy.unread unread) (by simp [still])
  refine ⟨s.seen, ?_, ?_⟩
  · simp [run_catching, ensureProcessStopped, EStateM.run_bind, seen_of_empty empty, still]
  · simp [Parent.Drains, seen_of_empty empty, empty, read]

@[simp] theorem reachable_reap (gone : Bool) (process : Process) :
    process.reap.reachable gone = false := by
  cases process <;> rfl

@[simp] theorem catches_osError (errno : Nat) : setup.catches (.osError errno) = true := rfl

@[simp] theorem catches_runtimeError (message : String) :
    setup.catches (.runtimeError message) = true := rfl

@[simp] theorem catches_indexError : setup.catches .indexError = false := rfl

section Suffer

variable (fate : Fate)

@[simp] theorem suffer_response : (s.suffer fate).response = s.response := by cases fate <;> rfl

@[simp] theorem suffer_commands : (s.suffer fate).commands = s.commands := by cases fate <;> rfl

@[simp] theorem suffer_answers : (s.suffer fate).answers = s.answers := by cases fate <;> rfl

@[simp] theorem suffer_isRunning : (s.suffer fate).isRunning = s.isRunning := by
  cases fate <;> rfl

@[simp] theorem suffer_instanced : (s.suffer fate).instanced = s.instanced := by
  cases fate <;> rfl

end Suffer

/-- An exception is waiting. -/
theorem stops_unread_iff {error : PyError} (empty : s.commands = [])
    (unread : s.response = some error) (running : s.isRunning = true)
    (instanced : s.instanced = true) :
    Stops setup s ↔ setup.catches error = true ∧
      (setup.autoInterruptOnCommand = true →
        s.leader = some false ∧ s.signalled s.answers = true) := by
  simp only [Stops, run_catching, ensureProcessStopped, Parent.signalled]
  cases auto : setup.autoInterruptOnCommand with
  | false =>
      cases caught : setup.catches error <;>
        simp [EStateM.run_bind, seen_of_empty, empty, running, unread, caught, Parent.progress,
          Parent.Drains]
  | true =>
      rcases leader : s.leader with _ | _ | _
      -- there may be no thread, or the first one is dead: the exception stays unread
      case none | some.true =>
        simp [EStateM.run_bind, seen_of_empty, empty, running, unread, Parent.Drains, interrupt,
          instanced, leader]
      case some.false =>
        cases signalled : s.process.reachable s.answers.gone with
        | false =>
            simp [EStateM.run_bind, seen_of_empty, empty, running, unread, Parent.Drains, interrupt,
              instanced, leader, Parent.signalled, signalled]
        | true =>
            cases caught : setup.catches error <;>
              simp [EStateM.run_bind, seen_of_empty, empty, running, unread, caught,
                Parent.progress, Parent.Drains, interrupt, wait, instanced, leader,
                Parent.signalled, signalled]

/-- The flag has been left set. -/
theorem stops_stuck_iff (empty : s.commands = []) (read : s.response = none)
    (running : s.isRunning = true) :
    Stops setup s ↔
      (setup.autoInterruptOnCommand = true → s.instanced = true →
        s.leader ≠ none ∧ (s.leader = some false → s.signalled s.answers = true →
          EndsCaught setup s.answers fun _ => True)) := by
  simp only [Stops, run_catching, ensureProcessStopped, Parent.signalled, EndsCaught]
  cases auto : setup.autoInterruptOnCommand with
  | false =>
      simp [EStateM.run_bind, seen_of_empty, empty, running, Parent.progress, read, Parent.Drains]
  | true =>
      cases instanced : s.instanced with
      | false =>
          simp [EStateM.run_bind, seen_of_empty, empty, running, read, Parent.Drains, interrupt,
            instanced]
      | true =>
          rcases leader : s.leader with _ | _ | _
          case none | some.true =>
            simp [EStateM.run_bind, seen_of_empty, empty, running, read, Parent.Drains, interrupt,
              instanced, leader]
          case some.false =>
            cases signalled : s.process.reachable s.answers.gone with
            | false =>
                simp [EStateM.run_bind, seen_of_empty, empty, running, read, Parent.Drains,
                  interrupt, instanced, leader, Parent.signalled, signalled]
            | true =>
                -- `interrupt` queues a wait
                rcases endings : s.answers.endings with _ | ⟨_ | ⟨fate, _ | error⟩, rest⟩
                case cons.some.some =>
                  cases caught : setup.catches error <;>
                    simp [EStateM.run_bind, seen_of_empty, empty, running, read, Parent.progress,
                      Parent.Drains, interrupt, wait, instanced, leader, Parent.signalled,
                      signalled, endings, caught, Parent.execute, Parent.waitProcess,
                      Parent.collects, Parent.respond]
                all_goals
                  simp [EStateM.run_bind, seen_of_empty, empty, running, read, Parent.progress,
                    Parent.Drains, interrupt, wait, instanced, leader, Parent.signalled,
                    signalled, endings, Parent.execute, Parent.waitProcess, Parent.collects,
                    Parent.setStopped]

section Waiting

variable (waiting : s.commands = [.wait]) (read : s.response = none) (running : s.isRunning = true)
  (leader : s.leader = some false)
include waiting read running leader

/-- A wait is under way, and is not interrupted. -/
theorem stops_joining_iff (auto : setup.autoInterruptOnCommand = false) :
    Stops setup s ↔ EndsCaught setup s.answers fun _ => True := by
  simp only [Stops, run_catching, ensureProcessStopped, EndsCaught]
  -- the wait ends before the main thread looks, or while it joins
  rcases lag : s.answers.lag with _ | lag
  all_goals
    rcases endings : s.answers.endings with _ | ⟨_ | ⟨fate, _ | error⟩, rest⟩
    case cons.some.some =>
      cases caught : setup.catches error <;>
        simp [EStateM.run_bind, seen_of_lag_zero, seen_of_lag_pos, lag, waiting, running, read,
          leader, endings, caught, auto, Parent.progress, Parent.Drains, Parent.execute,
          Parent.waitProcess, Parent.collects, Parent.respond]
    all_goals
      simp [EStateM.run_bind, seen_of_lag_zero, seen_of_lag_pos, lag, waiting, running, read,
        leader, endings, auto, Parent.progress, Parent.Drains, Parent.execute, Parent.waitProcess,
        Parent.collects, Parent.setStopped]

variable (instanced : s.instanced = true) (auto : setup.autoInterruptOnCommand = true)
include instanced auto

/-- A wait is under way, and is interrupted, but does not end. -/
theorem not_stops_of_never (never : s.answers.endings.head?.join = none) : ¬ Stops setup s := by
  simp only [Stops, run_catching, ensureProcessStopped]
  rcases endings : s.answers.endings with _ | ⟨_ | ending, rest⟩
  case cons.some => simp [endings] at never
  all_goals
    rcases lag : s.answers.lag with _ | _ | _ | lag
  all_goals
    cases signalled : s.process.reachable s.answers.gone
  all_goals
    simp [EStateM.run_bind, seen_of_lag_zero, seen_of_lag_pos, lag, waiting, running, read,
      leader, endings, auto, instanced, Parent.progress, Parent.Drains, Parent.execute,
      Parent.waitProcess, Parent.collects, Parent.signalled, signalled, interrupt, wait]

/-- A wait is under way, and ends well whether it is interrupted or not. -/
theorem stops_of_ending {fate : Fate} {rest : List (Option Ending)}
    (endings : s.answers.endings = some ⟨fate, none⟩ :: rest) : Stops setup s := by
  simp only [Stops, run_catching, ensureProcessStopped]
  rcases lag : s.answers.lag with _ | _ | _ | lag
  case succ.succ.succ =>
    cases signalled : s.process.reachable s.answers.gone with
    | false =>
        simp [EStateM.run_bind, seen_of_lag_pos, lag, waiting, running, read, leader, endings,
          auto, instanced, Parent.Drains, Parent.signalled, signalled, interrupt]
    | true =>
        cases fate <;>
          simp [EStateM.run_bind, seen_of_lag_pos, seen_of_empty, lag, waiting, running, read,
            leader, endings, auto, instanced, Parent.progress, Parent.Drains, Parent.execute,
            Parent.waitProcess, Parent.collects, Parent.signalled, signalled, interrupt, wait,
            Parent.setStopped, Parent.suffer]
  all_goals
    cases fate <;>
      simp [EStateM.run_bind, seen_of_lag_zero, seen_of_lag_pos, lag, waiting, running, read,
        leader, endings, auto, instanced, Parent.progress, Parent.Drains, Parent.execute,
        Parent.waitProcess, Parent.collects, interrupt, Parent.setStopped, Parent.suffer]

/-- A wait is under way, and raises. -/
theorem stops_raising_iff {fate : Fate} {error : PyError} {rest : List (Option Ending)}
    (endings : s.answers.endings = some ⟨fate, some error⟩ :: rest) :
    Stops setup s ↔ setup.catches error = true ∧
      s.signalled s.answers = true ∧ (s.answers.lag ≤ 2 → fate = .survives) := by
  simp only [Stops, run_catching, ensureProcessStopped, Parent.signalled]
  rcases lag : s.answers.lag with _ | _ | _ | lag
  case succ.succ.succ =>
    cases signalled : s.process.reachable s.answers.gone with
    | false =>
        simp [EStateM.run_bind, seen_of_lag_pos, lag, waiting, running, read, leader, endings,
          auto, instanced, Parent.Drains, Parent.signalled, signalled, interrupt]
    | true =>
        cases caught : setup.catches error <;>
          simp [EStateM.run_bind, seen_of_lag_pos, lag, waiting, running, read,
            leader, endings, auto, instanced, caught, Parent.progress, Parent.Drains,
            Parent.execute, Parent.waitProcess, Parent.collects, Parent.signalled, signalled,
            interrupt, wait, Parent.respond]
  all_goals
    cases fate
    case survives =>
      cases signalled : s.process.reachable s.answers.gone <;>
      cases caught : setup.catches error <;>
      simp [EStateM.run_bind, seen_of_lag_zero, seen_of_lag_pos, lag, waiting, running, read,
        leader, endings, auto, instanced, caught, Parent.progress, Parent.Drains, Parent.execute,
        Parent.waitProcess, Parent.collects, Parent.signalled, signalled, interrupt, wait,
        Parent.respond, Parent.suffer]
    all_goals
      simp [EStateM.run_bind, seen_of_lag_zero, seen_of_lag_pos, lag, waiting, running, read,
        leader, endings, auto, instanced, Parent.progress, Parent.Drains, Parent.execute,
        Parent.waitProcess, Parent.collects, Parent.signalled, interrupt,
        Parent.respond, Parent.suffer]

end Waiting

theorem stoppable_iff (tidy : Tidy s) : Stops setup s ↔ Stoppable setup s s.answers := by
  unfold Stoppable
  cases running : s.isRunning with
  | false => simp [stops_of_still tidy running]
  | true =>
      simp only [forall_const]
      rcases tidy.queue with empty | ⟨waiting, -, read, leader⟩
      · rcases response : s.response with _ | error
        · simp only [empty]
          exact stops_stuck_iff empty response running
        · have instanced : s.instanced = true := by
            by_contra finished
            have idle := tidy.finished (by simpa using finished)
            simp [idle.2] at response
          exact stops_unread_iff empty response running instanced
      · have instanced : s.instanced = true := by
          by_contra finished
          have idle := tidy.finished (by simpa using finished)
          simp [idle.1] at waiting
        simp only [read, waiting]
        cases auto : setup.autoInterruptOnCommand with
        | false => simpa using stops_joining_iff waiting read running leader auto
        | true =>
            simp only [EndsCaught, forall_const]
            rcases endings : s.answers.endings with _ | ⟨_ | ⟨fate, _ | error⟩, rest⟩
            case cons.some.none =>
              simp [stops_of_ending waiting read running leader instanced auto endings]
            case cons.some.some =>
              simpa using stops_raising_iff waiting read running leader instanced auto endings
            all_goals
              simp only [iff_false]
              exact not_stops_of_never waiting read running leader instanced auto
                (by simp [endings])

/-! ### Between the calls -/

/-- The condition holds where an exception is raised. -/
def Raised (P : Parent → Prop) : Abort → Parent → Prop
  | .raised _, s => P s
  | .crash, _ | .hang, _ => True

theorem Parent.Idle.tidy (idle : s.Idle) : Tidy s where
  queue := .inl idle.1
  unread unread := absurd idle.2 unread
  finished _ := idle

/-- Where nothing is over, the queues are tidy as soon as they are read or the flag is set. -/
theorem Tidy.of_instanced (instanced : s.instanced = true) (empty : s.commands = [])
    (unread : s.response ≠ none → s.isRunning = true) : Tidy s where
  queue := .inl empty
  unread := unread
  finished finished := absurd instanced (by simp [finished])

theorem Tidy.instanced_of_waiting (tidy : Tidy s) (waiting : s.commands = [.wait]) :
    s.instanced = true := by
  by_contra finished
  have idle := tidy.finished (by simpa using finished)
  simp [idle.1] at waiting

theorem tidy_progress (tidy : Tidy s) : Tidy (s.progress s.commands) := by
  rcases tidy.queue with empty | ⟨waiting, running, read, leader⟩
  · rw [progress_of_empty empty]
    exact tidy
  · have instanced := tidy.instanced_of_waiting waiting
    have stuck (never : s.waitProcess = none) : s.progress s.commands = s := by
      rw [waiting, Parent.progress]
      split
      · rename_i executed
        cases never.symm.trans executed
      · rw [← waiting]
    rcases endings : s.answers.endings with _ | ⟨_ | ⟨fate, _ | error⟩, rest⟩
    case nil | cons.none =>
      rw [stuck (by simp [Parent.waitProcess, leader, Parent.collects, endings])]
      exact tidy
    all_goals
      apply Tidy.of_instanced
      all_goals
        simp [waiting, Parent.progress, read, Parent.execute, Parent.waitProcess, leader,
          Parent.collects, endings, Parent.setStopped, Parent.respond, instanced, running]

theorem look_tidy : Triple Tidy look (fun seen t => seen = t ∧ Tidy t) (Raised Tidy) := by
  intro s tidy
  rw [run_look]
  refine ⟨rfl, ?_⟩
  unfold Parent.seen
  split
  · exact tidy_progress tidy
  · exact ⟨tidy.queue, tidy.unread, tidy.finished⟩

theorem joinAndCheckStatus_idle :
    Triple (fun _ => True) joinAndCheckStatus (fun _ => Parent.Idle) (Raised Parent.Idle) := by
  intro s _
  rw [run_joinAndCheckStatus]
  by_cases drained : (s.progress s.commands).commands = []
  · cases response : (s.progress s.commands).response with
    | none => simpa [drained, response] using ⟨drained, response⟩
    | some error => simp [drained, Raised, Parent.Idle]
  · simp [drained, Raised]

/-- A method whose last step joins the queue leaves it idle. -/
theorem command_idle (polled : Command) :
    Triple (fun _ => True) (command polled) (fun _ => Parent.Idle) (Raised Parent.Idle) :=
  Triple.bind (Q := fun _ _ => True) (Triple.modify fun _ _ => trivial) fun _ =>
    joinAndCheckStatus_idle

/-- While the queues are tidy, so they are where an exception leaves a method. -/
theorem Triple.of_idle {α : Type} {P : Parent → Prop} {p : Life α} {Q : α → Parent → Prop}
    (triple : Triple P p Q (Raised Parent.Idle)) : Triple P p Q (Raised Tidy) := by
  intro s holds
  have ended := triple s holds
  cases run : p.run s with
  | ok a t =>
      rw [run] at ended
      exact ended
  | error e t =>
      rw [run] at ended
      cases e with
      | raised error => exact Parent.Idle.tidy ended
      | crash | hang => trivial

theorem joinAndCheckStatus_tidy :
    Triple (fun _ => True) joinAndCheckStatus (fun _ => Parent.Idle) (Raised Tidy) :=
  Triple.of_idle joinAndCheckStatus_idle

theorem raise_tidy {α : Type} {P : Parent → Prop} {Q : α → Parent → Prop} {error : PyError}
    (tidy : ∀ s, P s → Tidy s) : Triple P (throw (.raised error) : Life α) Q (Raised Tidy) :=
  Triple.throw tidy

theorem firstThreadDead_tidy :
    Triple Tidy firstThreadDead (fun dead t => Tidy t ∧ t.leader = some dead) (Raised Tidy) := by
  intro s tidy
  have seen : Tidy s.seen := (look_tidy s tidy).2
  rw [run_firstThreadDead]
  cases leader : s.seen.leader with
  | none => exact seen
  | some dead => exact ⟨seen, leader⟩

theorem checkInstanced_tidy {P : Parent → Prop} (tidy : ∀ s, P s → Tidy s) (message : String) :
    Triple P (checkInstanced message) (fun _ t => P t ∧ t.instanced = true) (Raised Tidy) := by
  intro s holds
  rw [run_checkInstanced]
  cases instanced : s.instanced with
  | false => exact tidy s holds
  | true => exact ⟨holds, instanced⟩

theorem signal_tidy : Triple Tidy signal (fun _ => Tidy) (Raised Tidy) := by
  intro s tidy
  rw [run_signal]
  cases s.signalled s.answers <;> exact tidy

theorem command_tidy {P : Parent → Prop} (polled : Command) :
    Triple P (command polled) (fun _ => Parent.Idle) (Raised Tidy) :=
  Triple.of_idle ((command_idle polled).mono (fun _ _ => trivial) fun _ _ => id)

theorem wait_tidy : Triple Tidy wait (fun _ => Tidy) (Raised Tidy) := by
  refine (checkInstanced_tidy (fun _ => id) _).bind fun _ => ?_
  refine (joinAndCheckStatus_tidy.mono (fun _ _ => trivial) fun _ _ => Parent.Idle.tidy).bind
    fun _ => ?_
  refine firstThreadDead_tidy.bind fun dead => ?_
  refine (look_tidy.mono (fun _ => And.left) fun _ _ => And.right).bind fun seen => ?_
  refine Triple.ite (fun _ => Triple.pure fun _ => id) fun _ => ?_
  exact (command_tidy .wait).mono (fun _ => id) fun _ _ => Parent.Idle.tidy

theorem interrupt_tidy : Triple Tidy interrupt (fun _ => Tidy) (Raised Tidy) := by
  have signals : Triple Tidy (do
      if !(← look).isRunning then pure ()
      else
        signal
        wait) (fun _ => Tidy) (Raised Tidy) := by
    refine (look_tidy.mono (fun _ => id) fun _ _ => And.right).bind fun seen => ?_
    refine Triple.ite (fun _ => Triple.pure fun _ => id) fun _ => ?_
    exact signal_tidy.bind fun _ => wait_tidy
  refine (checkInstanced_tidy (fun _ => id) _).bind fun _ => ?_
  refine (firstThreadDead_tidy.mono (fun _ => And.left) fun _ _ => And.left).bind fun dead => ?_
  exact Triple.ite (fun _ => Triple.bind (raise_tidy fun _ => id) fun _ => signals)
    fun _ => signals

/-- A process that does not run has its queues idle. -/
theorem Tidy.idle_of_still (tidy : Tidy s) (still : s.isRunning = false) : s.Idle := by
  refine ⟨?_, ?_⟩
  · rcases tidy.queue with empty | ⟨-, running, -⟩
    · exact empty
    · exact absurd running (by simp [still])
  · by_contra unread
    exact absurd (tidy.unread unread) (by simp [still])

theorem ensureProcessStopped_tidy :
    Triple Tidy (ensureProcessStopped setup) (fun _ => Parent.Idle) (Raised Tidy) := by
  refine look_tidy.bind fun seen => Triple.ite (fun still => Triple.pure ?_) fun _ => ?_
  · rintro s ⟨rfl, tidy⟩
    exact tidy.idle_of_still (by simpa using still)
  · have joins {P : Parent → Prop} :
        Triple P joinAndCheckStatus (fun _ => Parent.Idle) (Raised Tidy) :=
      joinAndCheckStatus_tidy.mono (fun _ _ => trivial) fun _ _ => id
    exact Triple.ite
      (fun _ => (interrupt_tidy.mono (fun _ => And.right) fun _ _ => id).bind fun _ => joins)
      fun _ => joins

end Libdebug.InternalDebugger.Lifecycle
