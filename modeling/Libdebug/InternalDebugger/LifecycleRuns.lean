import Libdebug.InternalDebugger.Kill

/-!
The life of a process over whole runs: what every method leaves settled, and when every
`kill` is sound.
-/

namespace Libdebug.InternalDebugger.Lifecycle

open Libdebug.Foundation Libdebug.Ptrace Libdebug.Utils

variable {setup : Setup} {s t : Parent} {happening : Happening} {happenings : List Happening}

/-- What is found between two calls -/
structure Settled (s : Parent) : Prop where
  tidy : Tidy s
  kept : s.custody.Kept

theorem Settled.initial : Settled .initial where
  tidy := Parent.Idle.tidy ⟨rfl, rfl⟩
  kept :=
    { fresh := by simp [Parent.initial, Parent.custody]
      lost := by simp [Parent.initial, Parent.custody]
      managed := by simp [Parent.initial, Parent.custody] }

/-! ### Methods that start no process -/

theorem settled_of_ends {p : Life Unit} (leaves : Keeps LeavesCustody p)
    (tidy : Triple Tidy p (fun _ => Tidy) (Raised Tidy)) (settled : Settled s) (ends : Ends p s t) :
    Settled t := by
  have same := (leaves s settled.tidy.continues).2
  rw [stateAfter_of_ends ends] at same
  refine ⟨?_, same ▸ settled.kept⟩
  rcases ends with returned | ⟨error, raised⟩
  · exact tidy.of_ok settled.tidy returned
  · exact tidy.of_error settled.tidy raised

theorem ensureProcessStopped_instanced :
    Triple (fun s => Tidy s ∧ s.instanced = true) (ensureProcessStopped setup)
      (fun _ t => t.Idle ∧ t.instanced = true) (Raised Tidy) := by
  rintro s ⟨tidy, instanced⟩
  have leaves : Keeps LeavesCustody (ensureProcessStopped setup) := ensureProcessStopped_leaves
  have same := (leaves s tidy.continues).2
  rcases ended : (ensureProcessStopped setup).run s with ⟨_, t⟩ | ⟨e, t⟩
  · rw [stateAfter_of_ok ended] at same
    exact ⟨ensureProcessStopped_tidy.of_ok tidy ended,
      (congrArg Custody.instanced same).trans instanced⟩
  · exact ensureProcessStopped_tidy.of_error tidy ended

/-- The state the body of a method begins in -/
structure Ready (s : Parent) : Prop where
  idle : s.Idle
  instanced : s.instanced = true

theorem Ready.tidy (ready : Ready s) : Tidy s := ready.idle.tidy

theorem firstThreadDead_ready : Triple Ready firstThreadDead
    (fun dead t => Ready t ∧ t.leader = some dead) (Raised Tidy) := by
  intro s ready
  rw [run_firstThreadDead, seen_of_empty ready.idle.1]
  cases leader : s.leader with
  | none => exact Tidy.of_instanced ready.instanced ready.idle.1 (absurd ready.idle.2)
  | some dead => exact ⟨⟨ready.idle, ready.instanced⟩, rfl⟩

theorem checked_tidy {message : String} {body : Life Unit}
    (triple : Triple Ready body (fun _ => Tidy) (Raised Tidy)) :
    Triple Tidy (do
      checkInstanced message
      ensureProcessStopped setup
      body) (fun _ => Tidy) (Raised Tidy) := by
  refine (checkInstanced_tidy (fun _ => id) _).bind fun _ => ?_
  refine ensureProcessStopped_instanced.bind fun _ => ?_
  exact triple.mono (fun _ ready => ⟨ready.1, ready.2⟩) fun _ _ => id

theorem checked_leaves {message : String} {body : Life Unit} (leaves : Keeps LeavesCustody body) :
    Keeps LeavesCustody (do
      checkInstanced message
      ensureProcessStopped setup
      body) :=
  (checkInstanced_leaves _).bind fun _ => ensureProcessStopped_leaves.bind fun _ => leaves

theorem refusing_tidy {P : Parent → Prop} {body : Life Unit} (tidy : ∀ s, P s → Tidy s)
    (triple : Triple P body (fun _ => Tidy) (Raised Tidy)) :
    Triple P (refusing body) (fun _ => Tidy) (Raised Tidy) := by
  refine Triple.get_bind fun s => ?_
  split
  · exact triple.mono (fun _ => And.left) fun _ _ => id
  · exact raise_tidy fun _ holds => tidy _ holds.1

theorem refusing_leaves {body : Life Unit} (leaves : Keeps LeavesCustody body) :
    Keeps LeavesCustody (refusing body) := by
  refine Keeps.get_bind fun s => ?_
  split
  · exact leaves s
  · exact raise_leaves _ s

section Wrappers

variable {body : Life Unit}

theorem changeStateFunctionProcess_tidy
    (triple : Triple (fun s => Ready s ∧ s.leader = some false) body (fun _ => Tidy)
      (Raised Tidy)) :
    Triple Tidy (changeStateFunctionProcess setup body) (fun _ => Tidy) (Raised Tidy) := by
  refine checked_tidy (firstThreadDead_ready.bind fun dead => ?_)
  refine Triple.ite (fun _ => raise_tidy fun _ ready => ready.1.tidy) fun alive => ?_
  obtain rfl : dead = false := by simpa using alive
  exact refusing_tidy (fun _ ready => ready.1.tidy) triple

theorem changeStateFunctionThread_tidy
    (triple : Triple Ready body (fun _ => Tidy) (Raised Tidy)) :
    Triple Tidy (changeStateFunctionThread setup body) (fun _ => Tidy) (Raised Tidy) := by
  refine checked_tidy (Triple.get_bind fun s => ?_)
  refine Triple.ite (fun _ => raise_tidy fun _ ready => ready.1.tidy) fun _ => ?_
  exact refusing_tidy (fun _ ready => ready.1.tidy) (triple.mono (fun _ => And.left) fun _ _ => id)

variable (leaves : Keeps LeavesCustody body)
include leaves

theorem changeStateFunctionProcess_leaves :
    Keeps LeavesCustody (changeStateFunctionProcess setup body) :=
  checked_leaves (firstThreadDead_leaves.bind fun _ =>
    Keeps.ite (fun _ => raise_leaves _) fun _ => refusing_leaves leaves)

theorem changeStateFunctionThread_leaves :
    Keeps LeavesCustody (changeStateFunctionThread setup body) :=
  checked_leaves (Keeps.get_bind fun s =>
    Keeps.ite (fun _ => raise_leaves _) (fun _ => refusing_leaves leaves) s)

end Wrappers

theorem command_leaves {polled : Command} (continues : startsProcess polled = false) :
    Keeps LeavesCustody (command polled) :=
  (put_leaves continues).bind fun _ => joinAndCheckStatus_leaves

theorem command_settles {P : Parent → Prop} (polled : Command) :
    Triple P (command polled) (fun _ => Tidy) (Raised Tidy) :=
  (command_tidy polled).mono (fun _ => id) fun _ _ => Parent.Idle.tidy

/-- A process that continues counts as running. -/
theorem command_cont : Triple (fun s => Ready s ∧ s.leader = some false) (command .cont)
    (fun _ t => Ready t ∧ t.leader = some false ∧ t.isRunning = true) (Raised Tidy) := by
  rintro s ⟨⟨⟨empty, read⟩, instanced⟩, leader⟩
  rcases endings : s.answers.endings with _ | ⟨_ | ⟨fate, _ | error⟩, rest⟩ <;>
    simp [command, EStateM.run_bind, empty, Parent.progress, read, Parent.execute, Parent.ended,
      Parent.setRunning, Parent.respond, endings, Raised]
  case cons.some.none => exact ⟨⟨⟨rfl, rfl⟩, instanced⟩, leader⟩
  case cons.some.some => exact Parent.Idle.tidy ⟨rfl, rfl⟩

theorem cont_tidy : Triple Tidy (cont setup) (fun _ => Tidy) (Raised Tidy) := by
  refine changeStateFunctionProcess_tidy ?_
  refine Triple.bind (p := command .cont) command_cont fun _ => Triple.modify ?_
  rintro s ⟨ready, leader, running⟩
  refine ⟨.inr ⟨?_, running, ready.idle.2, leader⟩, absurd ready.idle.2, ?_⟩
  · simp [ready.idle.1]
  · intro finished
    exact absurd ready.instanced (by simpa using finished)

theorem step_tidy : Triple Tidy (step setup) (fun _ => Tidy) (Raised Tidy) := by
  refine changeStateFunctionThread_tidy ?_
  refine (ensureProcessStopped_tidy.mono (fun _ => Ready.tidy) fun _ _ _ => trivial).bind
    fun _ => ?_
  refine Triple.bind (Q := fun _ _ => True) (Triple.modify fun _ _ => trivial) fun _ => ?_
  exact command_settles .wait

theorem handleSyscall_leaves : Keeps LeavesCustody (handleSyscall setup) :=
  changeStateFunctionProcess_leaves (Keeps.get_bind fun s =>
    Keeps.ite (fun _ => Keeps.pure _) (fun _ => command_leaves rfl) s)

theorem handleSyscall_tidy : Triple Tidy (handleSyscall setup) (fun _ => Tidy) (Raised Tidy) := by
  refine changeStateFunctionProcess_tidy (Triple.get_bind fun s => ?_)
  refine Triple.ite (fun _ => Triple.pure ?_) fun _ => command_settles .handleSyscall
  exact fun t ready => ready.1.1.tidy

theorem putEach_leaves {queued : Command} (continues : startsProcess queued = false)
    (handlers : Nat) : Keeps LeavesCustody (putEach queued handlers) := by
  induction handlers with
  | zero => exact Keeps.pure _
  | succ handlers ih => exact (put_leaves continues).bind fun _ => ih

theorem prettyPrint_leaves {queued : Command} (continues : startsProcess queued = false)
    (handlers : Nat) : Keeps LeavesCustody (prettyPrint setup queued handlers) :=
  ensureProcessStopped_leaves.bind fun _ => (putEach_leaves continues handlers).bind fun _ =>
    joinAndCheckStatus_leaves

/-- Nothing is raised until the queue is joined. -/
theorem putEach_silent (queued : Command) (handlers : Nat) :
    Triple (fun _ => True) (putEach queued handlers) (fun _ _ => True) (Raised Tidy) := by
  induction handlers with
  | zero => exact Triple.pure fun _ _ => trivial
  | succ handlers ih =>
      exact Triple.bind (Q := fun _ _ => True) (Triple.modify fun _ _ => trivial) fun _ => ih

theorem prettyPrint_tidy (queued : Command) (handlers : Nat) :
    Triple Tidy (prettyPrint setup queued handlers) (fun _ => Tidy) (Raised Tidy) := by
  refine ensureProcessStopped_tidy.bind fun _ => ?_
  refine ((putEach_silent queued handlers).mono (fun _ _ => trivial) fun _ _ => id).bind
    fun _ => ?_
  exact joinAndCheckStatus_tidy.mono (fun _ => id) fun _ _ => Parent.Idle.tidy

/-- A method that neither starts nor kills a process leaves everything settled. -/
theorem settled_of_body {call : Call} {p : Life Unit} (chosen : body setup call = some p)
    (other : call ≠ .run ∧ call ≠ .attach ∧ call ≠ .kill) (settled : Settled s)
    (ends : Ends p s t) : Settled t := by
  have polled {polled : Command} (continues : startsProcess polled = false) :
      Keeps LeavesCustody (changeStateFunctionThread setup (command polled)) :=
    changeStateFunctionThread_leaves (command_leaves continues)
  cases call with
  | run | attach | kill => simp at other
  | terminate | gdb => cases chosen
  | cont =>
      cases chosen
      refine settled_of_ends (changeStateFunctionProcess_leaves ?_) cont_tidy settled ends
      exact (command_leaves rfl).bind fun _ => put_leaves rfl
  | detach =>
      cases chosen
      exact settled_of_ends (checked_leaves (command_leaves rfl))
        (checked_tidy (command_settles .detach)) settled ends
  | interrupt =>
      cases chosen
      exact settled_of_ends interrupt_leaves interrupt_tidy settled ends
  | wait =>
      cases chosen
      exact settled_of_ends wait_leaves wait_tidy settled ends
  | breakpoint | catchSignal =>
      cases chosen
      exact settled_of_ends (changeStateFunctionProcess_leaves (command_leaves rfl))
        (changeStateFunctionProcess_tidy (command_settles _)) settled ends
  | hijackSignal =>
      cases chosen
      have caught : Triple Tidy (changeStateFunctionProcess setup (command .catchSignal))
          (fun _ => Tidy) (Raised Tidy) := changeStateFunctionProcess_tidy (command_settles _)
      refine settled_of_ends (changeStateFunctionProcess_leaves ?_)
        (changeStateFunctionProcess_tidy ?_) settled ends
      · exact changeStateFunctionProcess_leaves (command_leaves rfl)
      · exact caught.mono (fun _ ready => ready.1.tidy) fun _ _ => id
  | handleSyscall | hijackSyscall =>
      cases chosen
      exact settled_of_ends handleSyscall_leaves handleSyscall_tidy settled ends
  | enablePrettyPrint handlers | disablePrettyPrint handlers =>
      cases chosen
      exact settled_of_ends (prettyPrint_leaves rfl handlers) (prettyPrint_tidy _ handlers) settled
        ends
  | step =>
      cases chosen
      refine settled_of_ends (changeStateFunctionThread_leaves ?_) step_tidy settled ends
      exact ensureProcessStopped_leaves.bind fun _ => (put_leaves rfl).bind fun _ =>
        command_leaves rfl
  | stepUntil | finish =>
      cases chosen
      exact settled_of_ends (polled rfl) (changeStateFunctionThread_tidy (command_settles _))
        settled ends
  | peekMemory | pokeMemory =>
      cases chosen
      exact settled_of_ends (checked_leaves (command_leaves rfl)) (checked_tidy (command_settles _))
        settled ends

/-! ### Kills -/

/-- Without a pipe manager it does not matter whether the process is over. -/
theorem Custody.Kept.of_none {c : Custody} (kept : c.Kept) (none : c.pipeManager = none)
    (instanced : Bool) : ({ c with instanced } : Custody).Kept where
  fresh := kept.fresh
  lost := kept.lost
  managed pipes some := by cases none.symm.trans some

theorem kept_withClosed {pipes : Pipes} (kept : s.custody.Kept)
    (manager : s.pipeManager = some pipes) : (s.killing.withClosed pipes).custody.Kept := by
  obtain ⟨threads, launched, present, old, -⟩ := kept.managed pipes manager
  refine ⟨fun entry closed => ?_, fun _ _ none => ?_, fun other some => ?_⟩
  · simp only [Parent.custody, Parent.withClosed, List.mem_cons] at closed
    rcases closed with rfl | rfl | rfl | before
    · exact old
    · exact old
    · exact old
    · exact kept.fresh entry before
  · cases manager.symm.trans none
  · obtain rfl : pipes = other := Option.some.inj (manager.symm.trans some)
    refine ⟨threads, launched, present, old, .inr ⟨rfl, ?_⟩⟩
    simp [Parent.custody, Parent.withClosed]

theorem not_launched_of_none (kept : s.custody.Kept) (launched : ¬ s.Launched) :
    s.pipeManager = none := by
  rcases manager : s.pipeManager with _ | pipes
  · rfl
  · obtain ⟨-, here, present, -⟩ := kept.managed pipes manager
    exact absurd ⟨here, present⟩ launched

/-- The state in which `kill` may be called -/
def Killable (setup : Setup) (s : Parent) : Prop :=
  Settled s ∧ (s.Launched → s.PipesInOrder ∧ Stoppable setup s s.answers)

/-- What is left of a process -/
structure Over (s : Parent) : Prop where
  idle : s.Idle
  kept : s.custody.Kept

theorem Over.settled (finished : Over s) : Settled s := ⟨finished.idle.tidy, finished.kept⟩

theorem idle_of_ends_killStopped {u : Parent} (none : u.pipeManager = none)
    (ends : Ends killStopped u t) : t.Idle := by
  unfold Ends at ends
  rw [run_killStopped_of_none none] at ends
  rcases ends with returned | ⟨error, raised⟩
  · exact joinAndCheckStatus_idle.of_ok trivial returned
  · exact joinAndCheckStatus_idle.of_error trivial raised

theorem settled_of_kill (killable : Killable setup s) (ends : Ends (kill setup) s t) :
    Settled t ∧ ((kill setup).run s = .ok () t → Over t) := by
  obtain ⟨settled, permits⟩ := killable
  by_cases launched : s.Launched
  · obtain ⟨order, stoppable⟩ := permits launched
    obtain ⟨t', ends', -, idle, u, pipes, manager, same, after⟩ :=
      kill_of_permits settled.tidy settled.kept launched order
        ((stoppable_iff settled.tidy).mpr stoppable)
    have unique : t = t' := (stateAfter_of_ends ends).symm.trans (stateAfter_of_ends ends')
    subst unique
    have finished : Over t := by
      refine ⟨idle, after ▸ kept_withClosed (s := u) (same ▸ settled.kept) ?_⟩
      exact (congrArg Custody.pipeManager same).trans manager
    exact ⟨finished.settled, fun _ => finished⟩
  · have none := not_launched_of_none settled.kept launched
    rcases ends_kill_iff.mp ends with ⟨u, returned, ends⟩ | ⟨error, raised⟩
    · obtain ⟨tidy, same⟩ := stopping_returned settled.tidy returned
      have noneThen : u.pipeManager = Option.none :=
        (congrArg Custody.pipeManager same).trans none
      have finished : Over t := by
        refine ⟨idle_of_ends_killStopped noneThen ends, ?_⟩
        rw [custody_killStopped_of_none tidy noneThen ends]
        exact (same ▸ settled.kept : u.custody.Kept).of_none noneThen false
      exact ⟨finished.settled, fun _ => finished⟩
    · obtain ⟨tidy, same⟩ := stopping_raised settled.tidy raised
      refine ⟨⟨tidy, same ▸ settled.kept⟩, fun returned => ?_⟩
      rw [run_kill, raised] at returned
      cases returned

theorem kill_settles : Triple (Killable setup) (kill setup) (fun _ => Over) (Raised Settled) := by
  intro s killable
  rcases ended : (kill setup).run s with ⟨⟨⟩, t⟩ | ⟨⟨error⟩ | _ | _, t⟩
  · exact (settled_of_kill killable (.inl ended)).2 ended
  · exact (settled_of_kill killable (.inr ⟨error, ended⟩)).1
  all_goals trivial

/-! ### Methods that start a process -/

/-- The state in which a process is started -/
structure Cleared (s : Parent) : Prop extends Over s where
  unmanaged : s.pipeManager = none

/-- What is left of a process is cleared. -/
theorem cleared_of_over : Triple Over (do
    if (← get).leader.isSome then clear
    modify ({ · with instanced := true })
    if (← look).commands ≠ [] then
      raise (.runtimeError "Polling thread command queue not empty.")) (fun _ => Cleared)
      (Raised Settled) := by
  have starts : Triple Cleared (do
      modify ({ · with instanced := true })
      if (← look).commands ≠ [] then
        raise (.runtimeError "Polling thread command queue not empty.")) (fun _ => Cleared)
      (Raised Settled) := by
    refine Triple.bind (Q := fun _ => Cleared) (Triple.modify fun s cleared => ?_) fun _ => ?_
    · exact ⟨⟨cleared.idle, cleared.kept.of_none cleared.unmanaged true⟩, cleared.unmanaged⟩
    · rintro s ⟨⟨⟨empty, read⟩, kept⟩, unmanaged⟩
      rw [EStateM.run_bind, run_look, seen_of_empty empty]
      simp only [empty, ne_eq, not_true_eq_false, if_false]
      exact ⟨⟨⟨rfl, read⟩, kept⟩, unmanaged⟩
  refine Triple.get_bind fun s => Triple.ite (fun _ => ?_) fun none => ?_
  · refine Triple.bind (Q := fun _ => Cleared) (Triple.modify ?_) fun _ => starts
    rintro t ⟨finished, -⟩
    exact ⟨⟨finished.idle, finished.kept.fresh, fun _ present => (by cases present),
      fun _ some => (by cases some)⟩, rfl⟩
  · refine starts.mono ?_ fun _ _ => id
    rintro t ⟨finished, rfl⟩
    refine ⟨finished, ?_⟩
    rcases manager : t.pipeManager with _ | pipes
    · rfl
    · exact absurd (finished.kept.managed pipes manager).1 none

/-- The state in which `run` or `attach` may be called -/
def Restartable (setup : Setup) (s : Parent) : Prop :=
  Settled s ∧ (s.instanced = true → s.Launched → s.PipesInOrder ∧ Stoppable setup s s.answers)

theorem restart_clears :
    Triple (Restartable setup) (restart setup) (fun _ => Cleared) (Raised Settled) := by
  refine Triple.get_bind fun s => Triple.ite (fun instanced => ?_) fun finished => ?_
  · refine Triple.bind (kill_settles.mono ?_ fun _ _ => id) fun _ => cleared_of_over
    rintro t ⟨⟨settled, permits⟩, rfl⟩
    exact ⟨settled, permits instanced⟩
  · refine cleared_of_over.mono ?_ fun _ _ => id
    rintro t ⟨⟨settled, -⟩, rfl⟩
    exact ⟨settled.tidy.finished (by simpa using finished), settled.kept⟩

/-- New pipes do not change what is known of the old ones. -/
theorem kept_openPipes (kept : s.custody.Kept) (unmanaged : s.pipeManager = none)
    (fds : PipeManager) : (s.openPipes fds).custody.Kept where
  fresh entry closed := Nat.lt_succ_of_lt (kept.fresh entry closed)
  lost launched present none := by
    obtain ⟨run, old, unclosed⟩ := kept.lost launched present none
    exact ⟨run, Nat.lt_succ_of_lt old, unclosed⟩
  managed pipes some := by cases unmanaged.symm.trans some

/-- The new pipes are held by their manager. -/
theorem holds_openPipes (kept : s.custody.Kept) (fds : PipeManager)
    (granted : s.grants fds = true) : (s.openPipes fds).custody.Holds ⟨s.runs, fds⟩ := by
  obtain ⟨distinct, -⟩ := Bool.and_eq_true_iff.mp granted
  simp only [List.nodup_cons, List.mem_cons, List.not_mem_nil, or_false, not_or, not_false_eq_true,
    List.nodup_nil, and_true, decide_eq_true_eq] at distinct
  intro pipeEnd
  constructor
  · intro closed
    exact absurd (kept.fresh _ closed) (Nat.lt_irrefl _)
  · cases pipeEnd <;>
      simp [Parent.custody, Parent.openPipes, fdOf, Dict.get?_set, distinct.1.1, distinct.1.2,
        distinct.2]

section Launch

variable (kept : s.custody.Kept) (unmanaged : s.pipeManager = none) {fds : PipeManager}
include kept unmanaged

/-- A `run` that fails after its child was spawned has lost its pipes. -/
theorem kept_spawn : (s.openPipes fds).spawn.custody.Kept where
  fresh := (kept_openPipes kept unmanaged fds).fresh
  lost _ _ _ :=
    ⟨s.runs, Nat.lt_succ_self _, fun closed => Nat.lt_irrefl _ (kept.fresh _ closed)⟩
  managed pipes some := by cases unmanaged.symm.trans some

theorem kept_spawned (granted : s.grants fds = true) :
    ({ (s.openPipes fds).spawn.custody with
      pipeManager := some ⟨s.runs, fds⟩ } : Custody).Kept where
  fresh := (kept_openPipes kept unmanaged fds).fresh
  lost _ _ none := by cases none
  managed pipes some := by
    obtain rfl := Option.some.inj some
    exact ⟨rfl, rfl, rfl, Nat.lt_succ_self _, .inl (holds_openPipes kept fds granted)⟩

theorem kept_launch (launched : s.launch = some t) : t.custody.Kept := by
  unfold Parent.launch at launched
  split at launched
  · rename_i granted
    dsimp only at launched
    split at launched
    · obtain rfl := Option.some.inj launched
      exact kept_openPipes kept unmanaged s.answers.fds
    · rw [Parent.collects] at launched
      split at launched
      · rename_i ending rest _
        obtain rfl := Option.some.inj launched
        have suffered : (({ (s.openPipes s.answers.fds).spawn with
            answers := { s.answers with endings := rest } } : Parent).suffer ending.fate).custody =
            (s.openPipes s.answers.fds).spawn.custody := custody_suffer _
        dsimp only
        split
        · have spawned := kept_spawned kept unmanaged granted
          rw [← suffered] at spawned
          exact spawned
        · have failed : (s.openPipes s.answers.fds).spawn.custody.Kept := kept_spawn kept unmanaged
          rw [← suffered] at failed
          exact failed
      · cases launched
  · obtain rfl := Option.some.inj launched
    exact kept

theorem kept_attached : ({ s.custody with
    launched := false, hasThreads := true, hasProcess := true } : Custody).Kept where
  fresh := kept.fresh
  lost launched := by cases launched
  managed pipes some := by cases unmanaged.symm.trans some

theorem kept_attachProcess (attached : s.attachProcess = some t) : t.custody.Kept := by
  unfold Parent.attachProcess Parent.ended at attached
  split at attached
  · rename_i ending rest _
    obtain rfl := Option.some.inj attached
    dsimp only
    split
    · have suffered : (({ s with
          answers := { s.answers with endings := rest }, process := .alive, launched := false
          detached := false, leader := some false } : Parent).suffer ending.fate).custody =
          { s.custody with launched := false, hasThreads := true, hasProcess := true } :=
        custody_suffer _
      have attached := kept_attached kept unmanaged
      rw [← suffered] at attached
      exact attached
    · exact kept
  · cases attached

end Launch

/-- After the command that starts a process nothing changes custody. -/
theorem kept_progress {first : Command} {rest : List Command} (kept : s.custody.Kept)
    (starts : ∀ t, s.execute first = some t → t.custody.Kept)
    (continues : ∀ command ∈ rest, startsProcess command = false) :
    (s.progress (first :: rest)).custody.Kept := by
  rw [Parent.progress]
  split
  · rename_i t _ executed
    rw [custody_progress continues]
    exact starts t executed
  · exact kept

/-- A command that starts a process is queued, and what may be queued behind it. -/
structure Starting (first : Command) (rest : List Command) (s : Parent) : Prop where
  queued : s.commands = first :: rest
  kept : s.custody.Kept
  unmanaged : s.pipeManager = none

theorem Cleared.starting (cleared : Cleared s) (first : Command) (rest : List Command) :
    Starting first rest { s with commands := s.commands ++ first :: rest } :=
  ⟨by simp [cleared.idle.1], cleared.kept, cleared.unmanaged⟩

theorem joinAndCheckStatus_starting {first : Command} {rest : List Command}
    (starts : ∀ s t : Parent, s.custody.Kept → s.pipeManager = none → s.execute first = some t →
      t.custody.Kept)
    (continues : ∀ command ∈ rest, startsProcess command = false) :
    Triple (Starting first rest) joinAndCheckStatus (fun _ => Over) (Raised Settled) := by
  rintro s ⟨queued, kept, unmanaged⟩
  have custody : (s.progress s.commands).custody.Kept := by
    rw [queued]
    exact kept_progress kept (fun t => starts s t kept unmanaged) continues
  have finished {t : Parent} (ends : Ends joinAndCheckStatus s t) : Over t := by
    obtain ⟨drained, rfl⟩ := ends_joinAndCheckStatus_iff.mp ends
    exact ⟨⟨drained, rfl⟩, custody⟩
  rcases ended : joinAndCheckStatus.run s with ⟨⟨⟩, t⟩ | ⟨⟨error⟩ | _ | _, t⟩
  · exact finished (.inl ended)
  · exact (finished (.inr ⟨error, ended⟩)).settled
  all_goals trivial

theorem attach_settles : Triple (Restartable setup) (attach setup) (fun _ => Settled)
    (Raised Settled) := by
  refine restart_clears.bind fun _ => ?_
  refine Triple.bind (Q := fun _ => Starting .attach []) (Triple.modify ?_) fun _ => ?_
  · exact fun s cleared => cleared.starting .attach []
  · refine (joinAndCheckStatus_starting ?_ (by simp)).mono (fun _ => id) fun _ _ => Over.settled
    exact fun s t kept unmanaged => kept_attachProcess kept unmanaged

theorem checkBinary_passes {P : Parent → Prop} (settled : ∀ s, P s → Settled s) :
    Triple P (checkBinary setup)
      (fun _ s => P s ∧ setup.argv.isSome = true ∧ s.answers.isFile = true ∧
        s.answers.isExecutable = true) (Raised Settled) := by
  refine Triple.get_bind fun s => ?_
  rintro t ⟨holds, rfl⟩
  rcases argv : setup.argv with _ | path
  · exact settled t holds
  · cases isFile : t.answers.isFile <;> cases isExecutable : t.answers.isExecutable <;>
      simp [EStateM.run_bind, Raised, holds, settled t holds, isFile, isExecutable]

/-- Without a pipe manager, `run` raises at its end. -/
theorem run_settles : Triple
    (fun s => Settled s ∧ (kills setup s s.answers .run = true → s.Launched →
      s.PipesInOrder ∧ Stoppable setup s s.answers))
    (run setup) (fun _ => Settled) (Raised Settled) := by
  have last : Triple Over (do
      if (← get).pipeManager.isNone then
        raise (.runtimeError "Something went wrong during pipe initialization."))
      (fun _ => Settled) (Raised Settled) := by
    refine Triple.get_bind fun s => Triple.ite (fun _ => ?_) fun _ => ?_
    · exact Triple.throw fun t finished => finished.1.settled
    · exact Triple.pure fun t finished => finished.1.settled
  have joins {rest : List Command} (continues : ∀ command ∈ rest, startsProcess command = false) :
      Triple (Starting .run rest) (do
        joinAndCheckStatus
        if (← get).pipeManager.isNone then
          raise (.runtimeError "Something went wrong during pipe initialization."))
      (fun _ => Settled) (Raised Settled) :=
    (joinAndCheckStatus_starting (fun s t kept unmanaged (executed : s.execute .run = some t) =>
      kept_launch kept unmanaged executed) continues).bind fun _ => last
  refine (checkBinary_passes fun _ => And.left).bind fun _ => ?_
  refine (restart_clears.mono ?_ fun _ _ => id).bind fun _ => ?_
  · rintro s ⟨⟨settled, permits⟩, argv, isFile, isExecutable⟩
    refine ⟨settled, fun instanced => permits ?_⟩
    simp [kills, instanced, argv, isFile, isExecutable]
  · refine Triple.bind (Q := fun _ => Starting .run []) (Triple.modify ?_) fun _ => ?_
    · exact fun s cleared => cleared.starting .run []
    · refine Triple.ite (fun _ => ?_) fun _ => joins (by simp)
      refine Triple.bind (Q := fun _ => Starting .run [.handleSyscall]) (Triple.modify ?_)
        fun _ => joins (by simp [startsProcess])
      exact fun s starting => ⟨by simp [starting.queued], starting.kept, starting.unmanaged⟩

/-! ### The rest of the program -/

/-- A descriptor that is not one of the pipes changes no custody. -/
theorem Custody.Kept.of_descriptors {c : Custody} (kept : c.Kept) {descriptors : Dict Nat Owner}
    (same : ∀ fd run pipeEnd, c.descriptors.get? fd = some (.pipe run pipeEnd) →
      descriptors.get? fd = c.descriptors.get? fd) : ({ c with descriptors } : Custody).Kept where
  fresh := kept.fresh
  lost := kept.lost
  managed pipes some := by
    obtain ⟨threads, launched, present, old, held⟩ := kept.managed pipes some
    refine ⟨threads, launched, present, old, held.imp_left fun holds pipeEnd => ?_⟩
    obtain ⟨unclosed, here⟩ := holds pipeEnd
    exact ⟨unclosed, (same _ _ _ here).trans here⟩

theorem Settled.opens (settled : Settled s) {fd : Nat} (free : fd ∉ s.descriptors.keys) :
    Settled { s with descriptors := s.descriptors.set fd .foreign } := by
  refine ⟨⟨settled.tidy.queue, settled.tidy.unread, settled.tidy.finished⟩,
    settled.kept.of_descriptors fun other run pipeEnd here => ?_⟩
  have different : other ≠ fd := by
    rintro rfl
    exact free (Dict.mem_keys.mpr ⟨_, here⟩)
  rw [Dict.get?_set, if_neg different]
  rfl

theorem Settled.closes (settled : Settled s) {fd : Nat}
    (foreign : s.descriptors.get? fd = some .foreign) :
    Settled { s with descriptors := s.descriptors.erase fd } := by
  refine ⟨⟨settled.tidy.queue, settled.tidy.unread, settled.tidy.finished⟩,
    settled.kept.of_descriptors fun other run pipeEnd here => ?_⟩
  have different : other ≠ fd := by
    rintro rfl
    cases foreign.symm.trans here
  rw [Dict.get?_erase, if_neg different]
  rfl

theorem Settled.exits (settled : Settled s) (alive : s.process = .alive) :
    Settled { s with process := .zombie } := by
  have same : ({ s with process := .zombie } : Parent).custody = s.custody := by
    simp [Parent.custody, alive, Process.present]
  exact ⟨⟨settled.tidy.queue, settled.tidy.unread, settled.tidy.finished⟩, same ▸ settled.kept⟩

theorem Settled.answering (settled : Settled s) (answers : Answers) : Settled { s with answers } :=
  ⟨⟨settled.tidy.queue, settled.tidy.unread, settled.tidy.finished⟩, settled.kept⟩

/-! ### Whole runs -/

theorem settled_of_triple {P : Parent → Prop} {p : Life Unit}
    (triple : Triple P p (fun _ => Settled) (Raised Settled)) (holds : P s) (ends : Ends p s t) :
    Settled t := by
  rcases ends with returned | ⟨error, raised⟩
  · exact triple.of_ok holds returned
  · exact triple.of_error holds raised

/-- What a permitted step does leaves everything settled. -/
theorem settled_of_permits (settled : Settled s) (permits : Permits setup s happening)
    (happened : (lifecycle setup).step s happening = some t) : Settled t := by
  cases happening with
  | call call answers =>
      obtain ⟨p, chosen, ended⟩ := Option.bind_eq_some_iff.mp happened
      have ends := ends_iff.mp ended
      have ready := settled.answering answers
      cases call with
      | kill =>
          cases chosen
          exact (settled_of_kill ⟨ready, permits rfl⟩ ends).1
      | run =>
          cases chosen
          exact settled_of_triple run_settles ⟨ready, permits⟩ ends
      | attach =>
          cases chosen
          exact settled_of_triple attach_settles ⟨ready, permits⟩ ends
      | _ => exact settled_of_body chosen (by simp) ready ends
  | opens fd =>
      simp only [lifecycle, Parent.happen] at happened
      split at happened
      · cases happened
      · rename_i free
        obtain rfl := Option.some.inj happened
        exact settled.opens free
  | closes fd =>
      simp only [lifecycle, Parent.happen] at happened
      split at happened
      · rename_i foreign
        obtain rfl := Option.some.inj happened
        exact settled.closes foreign
      · cases happened
  | exits =>
      simp only [lifecycle, Parent.happen] at happened
      split at happened
      · rename_i alive
        obtain rfl := Option.some.inj happened
        exact settled.exits alive
      · cases happened

/-- Where everything is settled, the soundness of a call is its permission. -/
theorem sound_iff_permits (settled : Settled s) :
    Sound setup s happening ↔ Permits setup s happening := by
  cases happening with
  | call call answers =>
      refine forall_congr' fun _ => forall_congr' fun launched => ?_
      have ready := settled.answering answers
      exact kill_sound_iff (s := { s with answers }) ready.tidy ready.kept launched
  | opens fd | closes fd | exits => exact Iff.rfl

/-- In a run of calls every `kill` of a launched process is sound if and only if, at each of
them, the process can be stopped and its pipes are as `run` left them. -/
theorem kills_sound_iff : (lifecycle setup).Meets (Sound setup) .initial happenings ↔
    (lifecycle setup).Meets (Permits setup) .initial happenings :=
  Machine.meets_congr (motive := Settled) (fun _ _ => sound_iff_permits)
    (fun _ _ _ settled sound => settled_of_permits settled ((sound_iff_permits settled).mp sound))
    Settled.initial

/-! ### Two kills that are not sound -/

def plainSetup : Setup where
  autoInterruptOnCommand := false
  escapeAntidebug := false
  argv := some "binary"
  derives := fun _ => false

/-- `run()`, with the pipes on the lowest free descriptors -/
def started : Happening :=
  .call .run { noAnswers with
    endings := [some ⟨.survives, none⟩], isFile := true, isExecutable := true, fds := ⟨4, 5, 7⟩ }

def killed : Happening := .call .kill noAnswers

/-- A process that is killed and run again, and killed again -/
example : ∃ s, (lifecycle plainSetup).run .initial [started, killed, started, killed] = some s ∧
    s.Terminated ∧ s.timesClosed 0 .stdinWrite = 1 ∧ s.timesClosed 1 .stdinWrite = 1 :=
  Machine.exists_of_run (by decide +kernel)

/-- `cont()`, into a breakpoint whose callback raises a `ValueError` -/
def continued : Happening := .call .cont { noAnswers with endings := [some ⟨.survives, none⟩] }

def raisingAnswers : Answers :=
  { noAnswers with endings := [some ⟨.survives, some (.valueError "callback")⟩] }

/-- A second `kill` closes the pipes again, and raises. -/
theorem second_kill_unsound :
    ¬ (lifecycle plainSetup).Meets (Sound plainSetup) .initial [started, killed, killed] := by
  obtain ⟨s, reached, launched, twice⟩ :
      ∃ s, (lifecycle plainSetup).run .initial [started, killed] = some s ∧ s.Launched ∧
        (s.ends (kill plainSetup) noAnswers).all
          (fun t => 0 < t.runs && t.timesClosed 0 .stdinWrite = 2) = true :=
    Machine.exists_of_run (by decide +kernel)
  intro sound
  obtain ⟨t, ended, -, once⟩ := Machine.Meets.last sound reached rfl launched
  simp only [ended, Option.all_some, Bool.and_eq_true, decide_eq_true_eq] at twice
  have counted := once 0 twice.1 .stdinWrite
  omega

/-- The exception of a callback leaves `kill` before it has killed anything. -/
theorem raising_callback_unsound :
    ¬ (lifecycle plainSetup).Meets (Sound plainSetup) .initial
      [started, continued, .call .kill raisingAnswers] := by
  obtain ⟨s, reached, launched, alive⟩ :
      ∃ s, (lifecycle plainSetup).run .initial [started, continued] = some s ∧ s.Launched ∧
        (s.ends (kill plainSetup) raisingAnswers).all (fun t => t.process = .alive) = true :=
    Machine.exists_of_run (by decide +kernel)
  intro sound
  obtain ⟨t, ended, terminated, -⟩ := Machine.Meets.last sound reached rfl launched
  simp only [ended, Option.all_some, decide_eq_true_eq] at alive
  rw [Parent.Terminated, alive] at terminated
  cases terminated <;> contradiction

end Libdebug.InternalDebugger.Lifecycle
