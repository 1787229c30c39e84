import Libdebug.InternalDebugger.CommandQueue

/-!
When the two threads wait for each other.

The polling thread waits until its answer is read, and the main thread reads it only
after the command queue has drained. So an answer must not be given while another
command is queued, and no command may be queued while an answer is unread. `step`
queues two commands at once, `run` does so when it escapes anti-debugging, pretty printing
queues one for each system call, and `terminate` queues one without looking for an answer;
as long as none of them meets an answer that way, no two calls can block each other,
whatever the commands answer.
-/

namespace Libdebug.InternalDebugger

open Libdebug.Foundation

variable {config : Config} {s next : System} {event : Event}

/-- The main thread is about to queue a command. -/
def System.queues (s : System) : Bool :=
  match s.main with
  | .executing (.put ..) | .executing (.terminate _) => true
  | _ => false

/-- A command that answers has none queued behind it, and a command is queued only while
no answer is unread. -/
def Orderly (s : System) : Event → Prop
  | .executed (some _) => s.commands.items = []
  | .main _ => s.queues = true → s.responses.items = []
  | _ => True

instance : DecidableRel Orderly
  | s, .executed (some _) => inferInstanceAs (Decidable (s.commands.items = []))
  | s, .main _ => inferInstanceAs (Decidable (s.queues = true → s.responses.items = []))
  | _, .executed none | _, .call _ | _, .get | _, .setRunning _ | _, .taskDone | _, .joined =>
      .isTrue trivial

/-! ### The invariant -/

def Poller.busy : Poller → Bool
  | .executing _ | .answered => true
  | _ => false

def MainThread.acknowledges : MainThread → Bool
  | .acknowledging _ => true
  | _ => false

structure InOrder (s : System) : Prop where
  commandTaken : s.commands.taken = s.poller.busy.toNat
  responseTaken : s.responses.taken = s.main.acknowledges.toNat
  /-- no command is queued behind an unread answer -/
  unread : s.responses.items ≠ [] → s.commands.items = []
  terminating : ∀ next, s.main = .joiningPoller next →
    .terminate ∈ s.commands.items ∨ s.poller = .executing .terminate ∨ s.poller = .finished

theorem InOrder.initial : InOrder .initial where
  commandTaken := rfl
  responseTaken := rfl
  unread := by simp [System.initial, TaskQueue.empty]
  terminating := by simp [System.initial]

/-- An invariant state is no deadlock. -/
theorem InOrder.not_deadlocked (ordered : InOrder s) : ¬ s.Deadlocked := by
  rintro ⟨blocked, waiting⟩
  obtain ⟨joining, unfinished⟩ : s.poller = .joining ∧ s.responses.unfinished ≠ 0 := by
    simpa [System.pollerBlocked] using waiting
  have nothingTaken : s.commands.taken = 0 := by simp [ordered.commandTaken, joining, Poller.busy]
  -- unless the main thread is acknowledging, what is unfinished is an unread answer
  have drained (reads : s.main.acknowledges = false) :
      s.responses.items ≠ [] ∧ s.commands.items = [] := by
    have unread : s.responses.items ≠ [] := by
      intro none
      simp [TaskQueue.unfinished, none, ordered.responseTaken, reads] at unfinished
    exact ⟨unread, ordered.unread unread⟩
  unfold System.mainBlocked at blocked
  split at blocked
  · rename_i executing
    have empty := (drained (by rw [executing]; rfl)).2
    simp [TaskQueue.unfinished, empty, nothingTaken] at blocked
  · rename_i executing
    exact (drained (by rw [executing]; rfl)).1 (of_decide_eq_true blocked)
  · rename_i terminating
    have empty := (drained (by rw [terminating]; rfl)).2
    rcases ordered.terminating _ terminating with queued | executed | finished
    · simp [empty] at queued
    · simp [joining] at executed
    · exact of_decide_eq_true blocked finished
  · exact Bool.false_ne_true blocked

/-! ### Steps of the main thread -/

/-- What one step of a program does to the queues: nothing, or it queues a command, or it
takes an answer. -/
theorem advance_cases {choice : Bool} {program : Program}
    (stepped : s.advance choice program = some next) :
    next.poller = s.poller ∧
      ((∃ rest, next.main = .executing rest ∧ next.commands = s.commands ∧
          next.responses = s.responses) ∨
        (∃ command rest, program = .put command rest ∧ next.main = .executing rest ∧
          next.commands = s.commands.put command ∧ next.responses = s.responses) ∨
        (∃ rest, program = .terminate rest ∧ next.main = .joiningPoller rest ∧
          next.commands = s.commands.put .terminate ∧ next.responses = s.responses) ∨
        ∃ answer rest, s.responses.get? = some (answer, next.responses) ∧
          next.main = .acknowledging rest ∧ next.commands = s.commands) := by
  cases program with
  | done => simp [System.advance] at stepped
  | put command rest =>
      obtain rfl := Option.some.inj stepped
      exact ⟨rfl, .inr (.inl ⟨command, rest, rfl, rfl, rfl, rfl⟩)⟩
  | terminate rest =>
      obtain rfl := Option.some.inj stepped
      exact ⟨rfl, .inr (.inr (.inl ⟨rest, rfl, rfl, rfl, rfl⟩))⟩
  | join rest =>
      simp only [System.advance] at stepped
      split at stepped
      · obtain rfl := Option.some.inj stepped
        exact ⟨rfl, .inl ⟨rest, rfl, rfl, rfl⟩⟩
      · simp at stepped
  | checkStatus raised rest =>
      simp only [System.advance] at stepped
      split at stepped
      · obtain rfl := Option.some.inj stepped
        exact ⟨rfl, .inl ⟨rest, rfl, rfl, rfl⟩⟩
      · rename_i answer responses taken
        obtain rfl := Option.some.inj stepped
        exact ⟨rfl, .inr (.inr (.inr ⟨answer, raised, taken, rfl, rfl⟩))⟩
  | getResponse rest =>
      obtain ⟨⟨answer, responses⟩, taken, rfl⟩ := Option.map_eq_some_iff.mp stepped
      exact ⟨rfl, .inr (.inr (.inr ⟨answer, rest, taken, rfl, rfl⟩))⟩
  | _ =>
      obtain rfl := Option.some.inj stepped
      exact ⟨rfl, .inl ⟨_, rfl, rfl, rfl⟩⟩

theorem mainStep_inOrder {choice : Bool} (ordered : InOrder s) (orderly : Orderly s (.main choice))
    (stepped : s.mainStep choice = some next) : InOrder next := by
  obtain ⟨commandTaken, responseTaken, unread, terminating⟩ := ordered
  unfold System.mainStep at stepped
  split at stepped
  · rename_i program executing
    have nothingTaken : s.responses.taken = 0 := by
      simp [responseTaken, executing, MainThread.acknowledges]
    obtain ⟨poller, ⟨rest, main, commands, responses⟩ |
      ⟨command, rest, rfl, main, commands, responses⟩ |
      ⟨rest, rfl, main, commands, responses⟩ | ⟨answer, rest, taken, main, commands⟩⟩ :=
      advance_cases stepped
    · refine ⟨?_, ?_, ?_, ?_⟩ <;> simp_all [MainThread.acknowledges]
    · have empty : s.responses.items = [] := orderly (by simp [System.queues, executing])
      refine ⟨?_, ?_, ?_, ?_⟩ <;> simp_all [MainThread.acknowledges]
    · have empty : s.responses.items = [] := orderly (by simp [System.queues, executing])
      refine ⟨?_, ?_, ?_, ?_⟩ <;> simp_all [MainThread.acknowledges]
    · obtain ⟨items, count⟩ := TaskQueue.get?_eq_some.mp taken
      refine ⟨?_, ?_, ?_, ?_⟩ <;> simp_all [MainThread.acknowledges]
  · rename_i rest acknowledging
    obtain rfl := Option.some.inj stepped
    refine ⟨commandTaken, ?_, unread, ?_⟩
    · simp [System.proceed, responseTaken, acknowledging, MainThread.acknowledges]
    · simp [System.proceed]
  · rename_i rest joining
    split at stepped
    · obtain rfl := Option.some.inj stepped
      refine ⟨commandTaken, ?_, unread, ?_⟩
      · simp [System.proceed, responseTaken, joining, MainThread.acknowledges]
      · simp [System.proceed]
    · simp at stepped

/-! ### Steps of the polling thread -/

theorem get_inOrder (ordered : InOrder s) (stepped : s.step config .get = some next) :
    InOrder next := by
  obtain ⟨commandTaken, responseTaken, unread, terminating⟩ := ordered
  simp only [System.step] at stepped
  split at stepped
  · rename_i command commands waiting taken
    obtain rfl := Option.some.inj stepped
    obtain ⟨items, count⟩ := TaskQueue.get?_eq_some.mp taken
    refine ⟨?_, responseTaken, fun unreadAnswer => ?_, fun rest joining => ?_⟩
    · simp [count, commandTaken, waiting, Poller.busy]
    · simpa [items] using unread unreadAnswer
    · rcases terminating rest joining with queued | executed | finished
      · rcases List.mem_cons.mp (items ▸ queued) with rfl | later
        · exact .inr (.inl rfl)
        · exact .inl later
      · simp [waiting] at executed
      · simp [waiting] at finished
  · simp at stepped

theorem executed_inOrder {command : Command} {answer : Option Response} (ordered : InOrder s)
    (executing : s.poller = .executing command) (orderly : Orderly s (.executed answer))
    (stepped : s.executed command answer = some next) : InOrder next := by
  obtain ⟨commandTaken, responseTaken, unread, terminating⟩ := ordered
  have oneTaken : s.commands.taken = 1 := by simp [commandTaken, executing, Poller.busy]
  have stillQueued (other : command ≠ .terminate) (rest : Program)
      (joining : s.main = .joiningPoller rest) : .terminate ∈ s.commands.items := by
    rcases terminating rest joining with queued | executed | finished
    · exact queued
    · exact absurd (Poller.executing.inj (executing.symm.trans executed)) other
    · simp [executing] at finished
  unfold System.executed at stepped
  split at stepped
  · obtain rfl := Option.some.inj stepped
    exact ⟨by simp [oneTaken, Poller.busy], responseTaken, unread, fun _ _ => .inr (.inr rfl)⟩
  · simp at stepped
  · simp at stepped
  · rename_i other _
    obtain rfl := Option.some.inj stepped
    exact ⟨by simp [oneTaken, Poller.busy], responseTaken, unread,
      fun rest joining => .inl (stillQueued other rest joining)⟩
  · rename_i response other
    obtain rfl := Option.some.inj stepped
    exact ⟨by simp [oneTaken, Poller.busy], responseTaken, fun _ => orderly,
      fun rest joining => .inl (stillQueued other rest joining)⟩

theorem step_inOrder (ordered : InOrder s) (orderly : Orderly s event)
    (stepped : s.step config event = some next) : InOrder next := by
  have ⟨commandTaken, responseTaken, unread, terminating⟩ := ordered
  cases event with
  | call call =>
      simp only [System.step] at stepped
      split at stepped
      · rename_i idle
        obtain rfl := Option.some.inj stepped
        refine ⟨commandTaken, ?_, unread, by simp [System.proceed]⟩
        simp [System.proceed, responseTaken, idle, MainThread.acknowledges]
      · simp at stepped
  | main choice => exact mainStep_inOrder ordered orderly stepped
  | get => exact get_inOrder ordered stepped
  | setRunning running =>
      simp only [System.step] at stepped
      split at stepped
      · obtain rfl := Option.some.inj stepped
        exact ⟨commandTaken, responseTaken, unread, terminating⟩
      · simp at stepped
  | executed answer =>
      simp only [System.step] at stepped
      split at stepped
      · rename_i command executing
        exact executed_inOrder ordered executing orderly stepped
      · simp at stepped
  | taskDone =>
      simp only [System.step] at stepped
      split at stepped
      · rename_i answered
        obtain rfl := Option.some.inj stepped
        refine ⟨?_, responseTaken, unread, fun rest joining => ?_⟩
        · simp [commandTaken, answered, Poller.busy]
        · simpa [answered] using terminating rest joining
      · simp at stepped
  | joined =>
      simp only [System.step] at stepped
      split at stepped
      · rename_i drained
        obtain rfl := Option.some.inj stepped
        refine ⟨?_, responseTaken, unread, fun rest joining => ?_⟩
        · simp [commandTaken, drained.1, Poller.busy]
        · simpa [drained.1] using terminating rest joining
      · simp at stepped

/-- A run whose steps are orderly reaches no deadlock. -/
theorem orderly_never_deadlocks {events : List Event}
    (orderly : (threads config).Meets Orderly .initial events)
    (reached : (threads config).run .initial events = some s) : ¬ s.Deadlocked :=
  (Machine.run_invariant (motive := InOrder)
    (fun _ _ _ ordered orderly stepped => step_inOrder ordered orderly stepped)
    InOrder.initial orderly reached).not_deadlocked

def plain : Config := ⟨false, false⟩

/-- `run()` of a binary that starts. -/
def started : List Event :=
  [.call .run, .main false, .main false, .main false, .main false, .main false, .main false,
    .get, .setRunning false, .executed none, .main false, .main false]

/-- `cont()`, a `wait` that raises behind it, and `wait()`. -/
def recovered : List Event :=
  started ++
    [.call .cont, .main false, .main false, .main false, .main false, .main false,
      .get, .setRunning true, .executed none, .main false, .main false, .main false,
      .get, .executed (some .exception), .taskDone, .call .wait, .main false, .main false,
      .main false]

/-- The exception of the `wait` that `cont` leaves behind is read by the next call. -/
theorem recovered_orderly :
    ∃ s, (threads plain).run .initial recovered = some s ∧ ¬ s.Deadlocked := by
  have orderly : (threads plain).Meets Orderly .initial recovered := by decide
  obtain ⟨s, reached, -⟩ : ∃ s, (threads plain).run .initial recovered = some s ∧
      s.main.acknowledges = true := Machine.exists_of_run (by decide)
  exact ⟨s, reached, orderly_never_deadlocks orderly reached⟩

/-- `step()` of a thread that cannot be stepped: the exception is put while the `wait` is
queued, which is never executed. -/
theorem raising_step_deadlocks :
    ∃ s, (threads plain).run .initial
        (started ++
          [.call .step, .main false, .main false, .main false, .main false, .main false,
            .main false, .get, .executed (some .exception), .taskDone]) = some s ∧
      s.Deadlocked :=
  Machine.exists_of_run (by decide)

end Libdebug.InternalDebugger
