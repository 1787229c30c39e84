import Libdebug.InternalDebugger.EnsureStopped

/-!
What `kill` does to the process and to the pipes.

An exception that waits for the main thread is raised by the first check of `kill`. One that
is neither an `OSError` nor a `RuntimeError` leaves `kill` before anything is killed; one that
is not read there keeps the polling thread from ever taking the command. A second `kill`
closes the pipes again. Nothing else goes wrong: where a launched process can be stopped and
its pipes are as `run` left them, `kill` ends with the process terminated and every pipe closed.
-/

namespace Libdebug.InternalDebugger.Lifecycle

open Libdebug.Foundation Libdebug.Ptrace Libdebug.Utils

variable {setup : Setup} {s t : Parent} {answers : Answers} {happenings : List Happening}

def Parent.Launched (s : Parent) : Prop := s.launched = true ∧ s.process.present = true

def Parent.Terminated (s : Parent) : Prop := s.process = .zombie ∨ s.process = .reaped

instance : Decidable s.Launched := inferInstanceAs (Decidable (_ ∧ _))

instance : Decidable s.Terminated := inferInstanceAs (Decidable (_ ∨ _))

def Parent.timesClosed (s : Parent) (run : Nat) (pipeEnd : PipeEnd) : Nat :=
  s.closings.count (run, pipeEnd)

/-- `kill` ends, the process is terminated, and every end of a pipe that a run has opened has
been closed exactly once. -/
def KillSound (setup : Setup) (s : Parent) (answers : Answers) : Prop :=
  ∃ t, s.ends (kill setup) answers = some t ∧ t.Terminated ∧
    ∀ run < t.runs, ∀ pipeEnd, t.timesClosed run pipeEnd = 1

/-- The methods that kill the process there is -/
def kills (setup : Setup) (s : Parent) (answers : Answers) : Call → Bool
  | .kill => true
  | .run => s.instanced && setup.argv.isSome && answers.isFile && answers.isExecutable
  | .attach => s.instanced
  | _ => false

/-- A launched process is killed soundly. -/
def Sound (setup : Setup) (s : Parent) : Happening → Prop
  | .call call answers => kills setup s answers call = true → s.Launched → KillSound setup s answers
  | .opens _ | .closes _ | .exits => True

/-- The pipe manager has its ends open; the ends of every other run have been closed. -/
def Parent.PipesInOrder (s : Parent) : Prop :=
  ∀ run < s.runs, ∀ pipeEnd,
    s.timesClosed run pipeEnd = if s.pipeManager.map Pipes.run = some run then 0 else 1

/-- A launched process that is killed can be stopped, and its pipes are as `run` left them. -/
def Permits (setup : Setup) (s : Parent) : Happening → Prop
  | .call call answers =>
      kills setup s answers call = true → s.Launched → s.PipesInOrder ∧ Stoppable setup s answers
  | .opens _ | .closes _ | .exits => True

/-! ### The pipes -/

def fdOf (manager : PipeManager) : PipeEnd → Nat
  | .stdinWrite => manager.stdinWrite
  | .stdoutRead => manager.stdoutRead
  | .stderrRead => manager.stderrRead

/-- The ends of the pipes of a run are open, and none of them has been closed. -/
def Custody.Holds (c : Custody) (pipes : Pipes) : Prop :=
  ∀ pipeEnd, (pipes.run, pipeEnd) ∉ c.closings ∧
    c.descriptors.get? (fdOf pipes.manager pipeEnd) = some (.pipe pipes.run pipeEnd)

structure Custody.Kept (c : Custody) : Prop where
  fresh : ∀ entry ∈ c.closings, entry.1 < c.runs
  /-- a launched process without a pipe manager is one whose `run` has failed -/
  lost : c.launched = true → c.hasProcess = true → c.pipeManager = none →
    ∃ run < c.runs, (run, .stdinWrite) ∉ c.closings
  managed : ∀ pipes, c.pipeManager = some pipes →
    c.hasThreads = true ∧ c.launched = true ∧ c.hasProcess = true ∧ pipes.run < c.runs ∧
      (c.Holds pipes ∨ c.instanced = false ∧ (pipes.run, .stdinWrite) ∈ c.closings)

@[simp] theorem run_osClose (run : Nat) (pipeEnd : PipeEnd) (fd : Nat) :
    (osClose run pipeEnd fd).run s =
      if s.descriptors.get? fd = none then
        .error (.raised (.osError 9)) { s with closings := (run, pipeEnd) :: s.closings }
      else .ok () { s with
        closings := (run, pipeEnd) :: s.closings
        descriptors := s.descriptors.erase fd } := by
  by_cases absent : s.descriptors.get? fd = none <;>
    simp [osClose, EStateM.run_bind, EStateM.run_modify, EStateM.run_get, absent]

/-- The three ends are closed. -/
def Parent.withClosed (s : Parent) (pipes : Pipes) : Parent :=
  { s with
    closings := (pipes.run, .stderrRead) :: (pipes.run, .stdoutRead) ::
      (pipes.run, .stdinWrite) :: s.closings
    descriptors := ((s.descriptors.erase pipes.manager.stdinWrite).erase
      pipes.manager.stdoutRead).erase pipes.manager.stderrRead }

theorem run_close_of_holds {pipes : Pipes} (holds : s.custody.Holds pipes) :
    pipes.close.run s = .ok () (s.withClosed pipes) := by
  obtain ⟨-, stdin⟩ := holds .stdinWrite
  obtain ⟨-, stdout⟩ := holds .stdoutRead
  obtain ⟨-, stderr⟩ := holds .stderrRead
  simp only [Parent.custody, fdOf] at stdin stdout stderr
  have outIn : pipes.manager.stdoutRead ≠ pipes.manager.stdinWrite := by
    intro same
    simp [same, stdin] at stdout
  have errIn : pipes.manager.stderrRead ≠ pipes.manager.stdinWrite := by
    intro same
    simp [same, stdin] at stderr
  have errOut : pipes.manager.stderrRead ≠ pipes.manager.stdoutRead := by
    intro same
    simp [same, stdout] at stderr
  simp only [Pipes.close, EStateM.run_bind, run_osClose, stdin, stdout, stderr, Dict.get?_erase,
    outIn, errIn, errOut, if_false, reduceCtorEq, Parent.withClosed]

/-- Closings are only ever added, and the queue is left alone. -/
structure Logs (s t : Parent) : Prop where
  closings : s.closings <:+ t.closings
  commands : t.commands = s.commands
  runs : t.runs = s.runs

instance : IsPreorder Parent Logs where
  refl _ := ⟨List.suffix_refl _, rfl, rfl⟩
  trans _ _ _ first second :=
    ⟨first.closings.trans second.closings, second.commands.trans first.commands,
      second.runs.trans first.runs⟩

theorem osClose_logs (run : Nat) (pipeEnd : PipeEnd) (fd : Nat) :
    Keeps Logs (osClose run pipeEnd fd) := by
  intro s
  by_cases absent : s.descriptors.get? fd = none
  all_goals
    simp only [stateAfter, run_osClose, absent, if_true, if_false]
    exact ⟨List.suffix_cons _ _, rfl, rfl⟩

/-- `close` begins with the end of standard input, whether that is open or not. -/
theorem close_logs (pipes : Pipes) :
    Logs { s with closings := (pipes.run, .stdinWrite) :: s.closings }
      (stateAfter pipes.close s) := by
  unfold Pipes.close
  refine stateAfter_bind
    (motive := Logs { s with closings := (pipes.run, .stdinWrite) :: s.closings })
    (fun e t raised => ?_) fun _ t returned => ?_
  · rw [run_osClose] at raised
    split at raised
    · cases raised
      exact ⟨List.suffix_refl _, rfl, rfl⟩
    · cases raised
  · rw [run_osClose] at returned
    split at returned
    · cases returned
    · cases returned
      have rest : Keeps Logs (do
          osClose pipes.run .stdoutRead pipes.manager.stdoutRead
          osClose pipes.run .stderrRead pipes.manager.stderrRead) :=
        (osClose_logs _ _ _).bind fun _ => osClose_logs _ _ _
      have logged := rest { s with
        closings := (pipes.run, .stdinWrite) :: s.closings
        descriptors := s.descriptors.erase pipes.manager.stdinWrite }
      exact ⟨logged.closings, logged.commands, logged.runs⟩

/-! ### The command that kills -/

/-- Where the queue drains down to the command that kills, the process is terminated. -/
theorem terminated_of_drained {commands : List Command} (present : s.process.present = true)
    (continues : ∀ command ∈ commands, startsProcess command = false)
    (drained : (s.progress (commands ++ [.kill])).commands = []) :
    (s.progress (commands ++ [.kill])).Terminated := by
  induction commands generalizing s with
  | nil =>
      simp only [List.nil_append, Parent.progress] at drained ⊢
      split
      · rename_i executed
        obtain rfl := Option.some.inj executed
        unfold Parent.killProcess Parent.Terminated
        cases s.detached <;> cases process : s.process <;> cases s.launched <;>
          simp [process, Process.reap, Parent.respond, Process.present] at present ⊢
      · rename_i stuck
        cases response : s.response <;> simp_all [Parent.execute]
  | cons command rest ih =>
      obtain ⟨here, later⟩ := List.forall_mem_cons.mp continues
      rcases response : s.response with _ | error
      · rcases executed : s.execute command with _ | t
        · simp [Parent.progress, response, executed] at drained
        · have kept := congrArg Custody.hasProcess (custody_execute executed here)
          simp only [List.cons_append, Parent.progress, response, executed] at drained ⊢
          exact ih (kept.trans present) later drained
      · simp [Parent.progress, response] at drained

/-- The command that kills is executed if and only if what is queued before it ends well. -/
theorem drained_iff {u : Parent} (tidy : Tidy u) (commands : s.commands = u.commands ++ [.kill])
    (response : s.response = u.response) (leader : s.leader = u.leader)
    (answers : s.answers = u.answers) :
    (s.progress s.commands).commands = [] ↔ u.Drains := by
  rcases tidy.queue with empty | ⟨waiting, -, read, alive⟩
  · cases unread : u.response <;>
      simp [commands, empty, Parent.progress, response, unread, Parent.execute, Parent.Drains]
  · rcases endings : u.answers.endings with _ | ⟨_ | ⟨fate, _ | error⟩, rest⟩ <;>
      simp [commands, waiting, Parent.progress, response, read, Parent.execute, Parent.Drains,
        Parent.waitProcess, Parent.collects, leader, alive, answers, endings, Parent.setStopped,
        Parent.respond]

/-! ### The check that `kill` begins with -/

theorem Tidy.continues (tidy : Tidy s) : s.Continues := by
  intro command queued
  rcases tidy.queue with empty | ⟨waiting, -⟩
  · simp [empty] at queued
  · obtain rfl : command = .wait := by simpa [waiting] using queued
    rfl

theorem catching_leaves {p : Life Unit} (kept : Keeps LeavesCustody p) :
    Keeps LeavesCustody (catching setup p) := by
  intro s
  have here := kept s
  unfold stateAfter at here ⊢
  rw [run_catching]
  rcases ended : p.run s with ⟨_, t⟩ | ⟨⟨error⟩ | _ | _, t⟩
  all_goals rw [ended] at here
  case error.raised =>
    cases caught : setup.catches error <;> simpa [caught] using here
  all_goals exact here

theorem catching_tidy {p : Life Unit}
    (triple : Triple Tidy p (fun _ => Tidy) (Raised Tidy)) :
    Triple Tidy (catching setup p) (fun _ => Tidy) (Raised Tidy) := by
  intro s tidy
  have here := triple s tidy
  rw [run_catching]
  rcases ended : p.run s with ⟨_, t⟩ | ⟨⟨error⟩ | _ | _, t⟩
  all_goals rw [ended] at here
  case error.raised =>
    cases caught : setup.catches error <;> simpa [caught, Raised] using here
  all_goals exact here

/-- The check of `kill` -/
def stopping (setup : Setup) : Life Unit := catching setup (ensureProcessStopped setup)

theorem stopping_tidy : Triple Tidy (stopping setup) (fun _ => Tidy) (Raised Tidy) :=
  catching_tidy (ensureProcessStopped_tidy.mono (fun _ => id) fun _ _ => Parent.Idle.tidy)

variable (setup) in
theorem custody_stopping (tidy : Tidy s) : (stateAfter (stopping setup) s).custody = s.custody :=
  (catching_leaves ensureProcessStopped_leaves s tidy.continues).2

theorem run_kill : (kill setup).run s = match (stopping setup).run s with
    | .ok _ t => killStopped.run t
    | .error e t => .error e t := by
  simp only [kill, stopping, EStateM.run_bind]
  cases (catching setup (ensureProcessStopped setup)).run s <;> rfl

/-- The state in which `kill` joins the queue, the pipes left aside -/
def Parent.killing (s : Parent) : Parent :=
  { s with commands := s.commands ++ [.kill], instanced := false }

theorem run_killStopped_of_none (none : s.pipeManager = none) :
    killStopped.run s = joinAndCheckStatus.run s.killing := by
  simp only [killStopped, EStateM.run_bind, run_put, EStateM.run_modify, EStateM.run_get, none,
    Parent.killing]

theorem run_killStopped_of_some {pipes : Pipes} (some : s.pipeManager = some pipes) :
    killStopped.run s =
      match pipes.close.run s.killing with
      | .ok _ t => joinAndCheckStatus.run t
      | .error e t => .error e t := by
  simp only [killStopped, EStateM.run_bind, run_put, EStateM.run_modify, EStateM.run_get, some,
    Parent.killing]
  cases pipes.close.run _ <;> rfl

/-- A method returns or raises. -/
def Ends (p : Life Unit) (s t : Parent) : Prop :=
  p.run s = .ok () t ∨ ∃ error, p.run s = .error (.raised error) t

theorem ends_iff {p : Life Unit} : s.ends p answers = some t ↔ Ends p { s with answers } t := by
  unfold Parent.ends Ends
  rcases p.run { s with answers } with ⟨_, u⟩ | ⟨⟨error⟩ | _ | _, u⟩ <;> simp

/-- The response queue is read. -/
def Parent.taken (s : Parent) : Parent := { s with response := none }

theorem taken_of_read (read : s.response = none) : s.taken = s := by
  unfold Parent.taken
  rw [← read]

theorem ends_joinAndCheckStatus_iff : Ends joinAndCheckStatus s t ↔
    (s.progress s.commands).commands = [] ∧ t = (s.progress s.commands).taken := by
  unfold Ends
  rw [run_joinAndCheckStatus]
  by_cases drained : (s.progress s.commands).commands = []
  · rw [if_pos drained, and_iff_right drained]
    cases response : (s.progress s.commands).response with
    | none => simp [taken_of_read response, eq_comm]
    | some error => simp [Parent.taken, eq_comm]
  · simp [drained]

theorem stateAfter_of_ends {p : Life Unit} (ends : Ends p s t) : stateAfter p s = t := by
  rcases ends with returned | ⟨error, raised⟩
  · exact stateAfter_of_ok returned
  · exact stateAfter_of_error raised

theorem run_killStopped_of_holds {u : Parent} {pipes : Pipes} (manager : u.pipeManager = some pipes)
    (holds : u.custody.Holds pipes) :
    killStopped.run u = joinAndCheckStatus.run (u.killing.withClosed pipes) := by
  have closed : pipes.close.run u.killing = .ok () (u.killing.withClosed pipes) :=
    run_close_of_holds holds
  rw [run_killStopped_of_some manager, closed]

section KillStopped

variable {u : Parent} (tidy : Tidy u)
include tidy

theorem killing_continues : u.killing.Continues := by
  intro command queued
  rcases List.mem_append.mp queued with old | new
  · exact tidy.continues command old
  · obtain rfl := List.mem_singleton.mp new
    rfl

theorem custody_of_ends_join {v : Parent} (commands : v.commands = u.killing.commands)
    (ends : Ends joinAndCheckStatus v t) : t.custody = v.custody := by
  obtain ⟨-, rfl⟩ := ends_joinAndCheckStatus_iff.mp ends
  rw [commands]
  exact custody_progress (killing_continues tidy)

/-- Without a pipe manager, nothing is closed. -/
theorem custody_killStopped_of_none (none : u.pipeManager = none) (ends : Ends killStopped u t) :
    t.custody = { u.custody with instanced := false } := by
  unfold Ends at ends
  rw [run_killStopped_of_none none] at ends
  exact custody_of_ends_join tidy rfl ends

variable {pipes : Pipes} (manager : u.pipeManager = some pipes)
include manager

/-- The pipes of the manager are closed once more. -/
theorem closings_killStopped (ends : Ends killStopped u t) :
    (pipes.run, .stdinWrite) :: u.closings <:+ t.closings ∧ t.runs = u.runs := by
  have logged := close_logs (s := u.killing) pipes
  unfold Ends at ends
  rw [run_killStopped_of_some manager] at ends
  rcases closed : pipes.close.run u.killing with ⟨_, v⟩ | ⟨e, v⟩
  · rw [closed] at ends
    rw [stateAfter_of_ok closed] at logged
    have same := custody_of_ends_join tidy logged.commands ends
    have closings : t.closings = v.closings := congrArg Custody.closings same
    exact ⟨closings ▸ logged.closings, (congrArg Custody.runs same).trans logged.runs⟩
  · rw [closed] at ends
    rw [stateAfter_of_error closed] at logged
    rcases ends with returned | ⟨error, raised⟩
    · cases returned
    · cases raised
      exact ⟨logged.closings, logged.runs⟩

variable (holds : u.custody.Holds pipes)
include holds

theorem custody_killStopped_of_holds (ends : Ends killStopped u t) :
    t.custody = (u.killing.withClosed pipes).custody := by
  unfold Ends at ends
  rw [run_killStopped_of_holds manager holds] at ends
  exact custody_of_ends_join tidy rfl ends

/-- With the pipes open, what the check has left decides whether `kill` ends. -/
theorem ends_killStopped_iff : (∃ t, Ends killStopped u t) ↔ u.Drains := by
  have drained :
      ((u.killing.withClosed pipes).progress (u.killing.withClosed pipes).commands).commands = [] ↔
        u.Drains := drained_iff tidy rfl rfl rfl rfl
  unfold Ends
  rw [run_killStopped_of_holds manager holds, ← drained]
  constructor
  · rintro ⟨t, ends⟩
    exact (ends_joinAndCheckStatus_iff.mp ends).1
  · intro ended
    exact ⟨_, ends_joinAndCheckStatus_iff.mpr ⟨ended, rfl⟩⟩

theorem terminated_of_holds (present : u.process.present = true) (ends : Ends killStopped u t) :
    t.Terminated := by
  unfold Ends at ends
  rw [run_killStopped_of_holds manager holds] at ends
  obtain ⟨drained, rfl⟩ := ends_joinAndCheckStatus_iff.mp ends
  exact terminated_of_drained (s := u.killing.withClosed pipes) present tidy.continues drained

end KillStopped

/-! ### Sound kills -/

theorem timesClosed_withClosed (pipes : Pipes) (run : Nat) (pipeEnd : PipeEnd) :
    (s.withClosed pipes).timesClosed run pipeEnd =
      s.timesClosed run pipeEnd + if pipes.run = run then 1 else 0 := by
  by_cases same : pipes.run = run <;> cases pipeEnd <;>
    simp [Parent.timesClosed, Parent.withClosed, same]

theorem timesClosed_congr {u : Parent} (same : t.custody = u.custody) (run : Nat)
    (pipeEnd : PipeEnd) : t.timesClosed run pipeEnd = u.timesClosed run pipeEnd := by
  have closings : t.closings = u.closings := congrArg Custody.closings same
  rw [Parent.timesClosed, Parent.timesClosed, closings]

/-- `kill` raises what its check raises, and goes on where that returns. -/
theorem ends_kill_iff : Ends (kill setup) s t ↔
    (∃ u, (stopping setup).run s = .ok () u ∧ Ends killStopped u t) ∨
      ∃ error, (stopping setup).run s = .error (.raised error) t := by
  unfold Ends
  rw [run_kill]
  rcases (stopping setup).run s with ⟨⟨⟩, u⟩ | ⟨e, u⟩ <;> simp

/-- If each end has been closed once after the pipes of the manager were, the pipes were in
order before. -/
theorem inOrder_of_once {u : Parent} {pipes : Pipes} (manager : s.pipeManager = some pipes)
    (same : u.custody = s.custody) (after : t.custody = (u.killing.withClosed pipes).custody)
    (once : ∀ run < t.runs, ∀ pipeEnd, t.timesClosed run pipeEnd = 1) : s.PipesInOrder := by
  intro run started pipeEnd
  have runs : t.runs = s.runs := (congrArg Custody.runs after).trans (congrArg Custody.runs same)
  have unchanged : u.killing.timesClosed run pipeEnd = s.timesClosed run pipeEnd :=
    timesClosed_congr (t := u) same run pipeEnd
  have counted := once run (runs ▸ started) pipeEnd
  rw [timesClosed_congr after, timesClosed_withClosed, unchanged] at counted
  simp only [manager, Option.map_some, Option.some_inj]
  by_cases mine : pipes.run = run
  · rw [if_pos mine] at counted ⊢
    omega
  · rw [if_neg mine] at counted ⊢
    omega

/-- A process that is there with its pipes in order has a manager that holds them. -/
theorem holds_of_inOrder (kept : s.custody.Kept) (launched : s.Launched)
    (order : s.PipesInOrder) :
    ∃ pipes, s.pipeManager = some pipes ∧ s.custody.Holds pipes := by
  rcases manager : s.pipeManager with _ | pipes
  · obtain ⟨run, old, unclosed⟩ := kept.lost launched.1 launched.2 manager
    have never : s.timesClosed run .stdinWrite = 0 := List.count_eq_zero.mpr unclosed
    have counted := order run old .stdinWrite
    simp [never, manager] at counted
  · obtain ⟨-, -, -, old, holds | ⟨-, before⟩⟩ := kept.managed pipes manager
    · exact ⟨pipes, rfl, holds⟩
    · have counted := order pipes.run old .stdinWrite
      simp only [manager, Option.map_some, if_true] at counted
      exact absurd before (List.count_eq_zero.mp counted)

section

variable (tidy : Tidy s)
include tidy

/-- What the check of `kill` returns from -/
theorem stopping_returned {u : Parent} (returned : (stopping setup).run s = .ok () u) :
    Tidy u ∧ u.custody = s.custody := by
  constructor
  · exact stopping_tidy.of_ok tidy returned
  · have same := custody_stopping setup tidy
    rwa [stateAfter_of_ok returned] at same

theorem stopping_raised {error : PyError}
    (raised : (stopping setup).run s = .error (.raised error) t) :
    Tidy t ∧ t.custody = s.custody := by
  constructor
  · exact stopping_tidy.of_error tidy raised
  · have same := custody_stopping setup tidy
    rwa [stateAfter_of_error raised] at same

variable (setup) in
/-- After a `kill`, nothing waits. -/
theorem stops_of_over (finished : s.instanced = false) : Stops setup s := by
  rw [stoppable_iff tidy]
  intro _
  obtain ⟨empty, read⟩ := tidy.finished finished
  simp [empty, read, finished]

variable (kept : s.custody.Kept) (launched : s.Launched)
include kept launched

/-- A process that is killed soundly had its pipes in order, and could be stopped. -/
theorem permits_of_kill (ends : Ends (kill setup) s t)
    (once : ∀ run < t.runs, ∀ pipeEnd, t.timesClosed run pipeEnd = 1) :
    s.PipesInOrder ∧ Stops setup s := by
  -- an end that is not closed now was closed before
  have closed {run : Nat} (old : run < s.runs) (same : t.closings = s.closings)
      (runs : t.runs = s.runs) : (run, PipeEnd.stdinWrite) ∈ s.closings := by
    by_contra unclosed
    have counted := once run (runs ▸ old) .stdinWrite
    rw [Parent.timesClosed, same, List.count_eq_zero_of_not_mem unclosed] at counted
    exact absurd counted (by decide)
  rcases ends_kill_iff.mp ends with ⟨u, returned, ends⟩ | ⟨error, raised⟩
  · obtain ⟨tidyThen, same⟩ := stopping_returned tidy returned
    have managers : u.pipeManager = s.pipeManager := congrArg Custody.pipeManager same
    have runs : u.runs = s.runs := congrArg Custody.runs same
    rcases manager : s.pipeManager with _ | pipes
    · obtain ⟨run, old, unclosed⟩ := kept.lost launched.1 launched.2 manager
      have still := custody_killStopped_of_none tidyThen (managers.trans manager) ends
      rw [same] at still
      have before := closed old (congrArg Custody.closings still) (congrArg Custody.runs still)
      exact absurd before unclosed
    · rw [manager] at managers
      obtain ⟨-, -, -, old, holds | ⟨-, before⟩⟩ := kept.managed pipes manager
      · have holdsThen : u.custody.Holds pipes := same ▸ holds
        have after := custody_killStopped_of_holds tidyThen managers holdsThen ends
        have drains := (ends_killStopped_iff tidyThen managers holdsThen).mp ⟨t, ends⟩
        exact ⟨inOrder_of_once manager same after once, u, returned, drains⟩
      · -- the pipes are closed twice
        obtain ⟨⟨later, logged⟩, still⟩ := closings_killStopped tidyThen managers ends
        have closings : u.closings = s.closings := congrArg Custody.closings same
        have counted := once pipes.run (by rwa [still, runs]) .stdinWrite
        rw [Parent.timesClosed, ← logged, closings, List.count_append, List.count_cons_self]
          at counted
        have positive : 0 < s.closings.count (pipes.run, .stdinWrite) :=
          List.count_pos_iff.mpr before
        omega
  · obtain ⟨-, same⟩ := stopping_raised tidy raised
    have closings : t.closings = s.closings := congrArg Custody.closings same
    have runs : t.runs = s.runs := congrArg Custody.runs same
    exfalso
    rcases manager : s.pipeManager with _ | pipes
    · obtain ⟨run, old, unclosed⟩ := kept.lost launched.1 launched.2 manager
      exact unclosed (closed old closings runs)
    · obtain ⟨-, -, -, old, holds | ⟨finished, -⟩⟩ := kept.managed pipes manager
      · exact (holds .stdinWrite).1 (closed old closings runs)
      · obtain ⟨u, returned, -⟩ := stops_of_over setup tidy finished
        cases raised.symm.trans returned

/-- A process with its pipes in order that can be stopped is killed soundly. -/
theorem kill_of_permits (order : s.PipesInOrder) (stops : Stops setup s) :
    ∃ t, Ends (kill setup) s t ∧ t.Terminated ∧ t.Idle ∧
      ∃ (u : Parent) (pipes : Pipes), s.pipeManager = some pipes ∧ u.custody = s.custody ∧
        t.custody = (u.killing.withClosed pipes).custody := by
  obtain ⟨pipes, manager, holds⟩ := holds_of_inOrder kept launched order
  obtain ⟨u, returned, drains⟩ := stops
  obtain ⟨tidyThen, same⟩ := stopping_returned tidy returned
  have managers : u.pipeManager = some pipes := (congrArg Custody.pipeManager same).trans manager
  have holdsThen : u.custody.Holds pipes := same ▸ holds
  obtain ⟨t, ends⟩ := (ends_killStopped_iff tidyThen managers holdsThen).mpr drains
  have present : u.process.present = true := (congrArg Custody.hasProcess same).trans launched.2
  refine ⟨t, ends_kill_iff.mpr (.inl ⟨u, returned, ends⟩), ?_, ?_, u, pipes, manager, same, ?_⟩
  · exact terminated_of_holds tidyThen managers holdsThen present ends
  · rcases ends with ended | ⟨error, ended⟩
    all_goals rw [run_killStopped_of_holds managers holdsThen] at ended
    · exact joinAndCheckStatus_idle.of_ok trivial ended
    · exact joinAndCheckStatus_idle.of_error trivial ended
  · exact custody_killStopped_of_holds tidyThen managers holdsThen ends

/-- `kill` is sound if and only if the pipes are in order and the process can be stopped. -/
theorem kill_sound_iff : KillSound setup s s.answers ↔
    s.PipesInOrder ∧ Stoppable setup s s.answers := by
  rw [← stoppable_iff tidy]
  constructor
  · rintro ⟨t, ended, -, once⟩
    exact permits_of_kill tidy kept launched (ends_iff.mp ended) once
  · rintro ⟨order, stops⟩
    obtain ⟨t, ends, terminated, -, u, pipes, manager, same, after⟩ :=
      kill_of_permits tidy kept launched order stops
    refine ⟨t, ends_iff.mpr ends, terminated, fun run started pipeEnd => ?_⟩
    have runs : t.runs = s.runs := (congrArg Custody.runs after).trans (congrArg Custody.runs same)
    have unchanged : u.killing.timesClosed run pipeEnd = s.timesClosed run pipeEnd :=
      timesClosed_congr (t := u) same run pipeEnd
    have before := order run (runs ▸ started) pipeEnd
    rw [timesClosed_congr after, timesClosed_withClosed, unchanged, before]
    by_cases mine : pipes.run = run <;> simp [manager, mine]

end

end Libdebug.InternalDebugger.Lifecycle
