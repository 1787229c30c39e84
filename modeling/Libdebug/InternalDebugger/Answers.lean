import Libdebug.Foundation.Histories
import Libdebug.InternalDebugger.Deadlock

/-!
What the two threads tell each other, in every interleaving of their steps.

The commands are executed in the order in which they were issued; none is lost or executed twice,
though one that is queued behind a deadlock is never executed. An answer stays in the response
queue until the main thread reads it, and the polling thread takes no command in the meantime. The
main thread reads only after a join of the command queue, so that the answer it finds is that of
the command issued last: an exception that a call raises was raised by the last command, and what
`_peek_memory` returns was read for it.
-/

namespace Libdebug.InternalDebugger

open Libdebug.Foundation

variable {config : Config} {s next : System} {event : Event}

/-! ### The history of the two queues -/

inductive Note where
  | issued (command : Command)
  | executed (command : Command) (answer : Option Response)
  /-- read, and raised, by `_join_and_check_status` -/
  | raised (answer : Response)
  /-- read by `_peek_memory` -/
  | got (answer : Response)
  deriving DecidableEq, Repr

def Note.answer? : Note → Option Response
  | .raised answer | .got answer => some answer
  | .issued _ | .executed .. => none

/-- What a step notes. -/
def notes (s : System) : Event → List Note
  | .main _ =>
      match s.main with
      | .executing (.put command _) => [.issued command]
      | .executing (.terminate _) => [.issued .terminate]
      | .executing (.checkStatus ..) => (s.responses.get?.map (.raised ·.1)).toList
      | .executing (.getResponse _) => (s.responses.get?.map (.got ·.1)).toList
      | _ => []
  | .executed answer =>
      match s.poller with
      | .executing command => [.executed command answer]
      | _ => []
  | .call _ | .get | .setRunning _ | .taskDone | .joined => []

def issuedOf (history : List Note) : List Command :=
  history.filterMap fun
    | .issued command => some command
    | _ => none

def executedOf (history : List Note) : List (Command × Option Response) :=
  history.filterMap fun
    | .executed command answer => some (command, answer)
    | _ => none

def readOf (history : List Note) : List Response := history.filterMap Note.answer?

section Histories

variable (past more : List Note)

@[simp] theorem issuedOf_append : issuedOf (past ++ more) = issuedOf past ++ issuedOf more :=
  List.filterMap_append

@[simp] theorem executedOf_append :
    executedOf (past ++ more) = executedOf past ++ executedOf more := List.filterMap_append

@[simp] theorem readOf_append : readOf (past ++ more) = readOf past ++ readOf more :=
  List.filterMap_append

variable (command : Command) (answer : Option Response)

@[simp] theorem issuedOf_executed : issuedOf [.executed command answer] = [] := rfl

@[simp] theorem executedOf_executed :
    executedOf [.executed command answer] = [(command, answer)] := rfl

@[simp] theorem readOf_executed : readOf [.executed command answer] = [] := rfl

@[simp] theorem issuedOf_issued : issuedOf [.issued command] = [command] := rfl

@[simp] theorem executedOf_issued : executedOf [.issued command] = [] := rfl

@[simp] theorem readOf_issued : readOf [.issued command] = [] := rfl

end Histories

/-- The command that the polling thread has in hand. -/
def Poller.inHand : Poller → List Command
  | .executing command => [command]
  | _ => []

@[simp] theorem Poller.inHand_executing (command : Command) :
    (executing command).inHand = [command] := rfl

@[simp] theorem Poller.busy_executing (command : Command) : (executing command).busy = true := rfl

/-- Every command has been executed, and the last one gave this answer. -/
def LastAnswer (past : List Note) (command : Command) (answer : Response) : Prop :=
  ∃ before, executedOf past = before ++ [(command, some answer)] ∧
    issuedOf past = before.map Prod.fst ++ [command]

/-- Every answer that was read is that of the last command; for `_peek_memory` this is its
own one. -/
def Attributed (history : List Note) : Prop :=
  ∀ past note answer, past ++ [note] <+: history → note.answer? = some answer →
    ∃ command, LastAnswer past command answer ∧
      (note = .got answer → command = .peekMemory)

theorem Attributed.concat {history : List Note} {note : Note} (attributed : Attributed history)
    (own : ∀ answer, note.answer? = some answer → ∃ command, LastAnswer history command answer ∧
      (note = .got answer → command = .peekMemory)) : Attributed (history ++ [note]) := by
  intro past last answer before read
  rcases List.prefix_concat_iff.mp before with whole | earlier
  · obtain ⟨rfl, same⟩ := List.append_inj' whole rfl
    obtain rfl := List.singleton_inj.mp same
    exact own answer read
  · exact attributed past last answer earlier read

/-! ### Where answers are read -/

namespace Program

/-- The response queue is looked into only after a join of the command queue, and taken from
only after a `_peek_memory` has been issued. -/
def Guarded : Program → Prop
  | .done => True
  | .put .peekMemory (.join (.getResponse next)) => next.Guarded
  | .put _ next => next.Guarded
  | .join (.checkStatus raised next) => raised.Guarded ∧ next.Guarded
  | .join _ | .checkStatus .. | .getResponse _ => False
  | .ifRunning yes no | .ifInstanced yes no | .ifQueueEmpty yes no | .ifPolling yes no =>
      yes.Guarded ∧ no.Guarded
  | .setInstanced _ next | .clear next | .terminate next => next.Guarded
  | .either first second => first.Guarded ∧ second.Guarded

variable {raised next body : Program}

theorem wait_guarded (raises : raised.Guarded) (goesOn : next.Guarded) :
    (wait raised next).Guarded := by
  simp [wait, joinAndCheckStatus, ifFirstThreadDead, Guarded, raises, goesOn]

theorem interrupt_guarded (raises : raised.Guarded) (goesOn : next.Guarded) :
    (interrupt raised next).Guarded := by
  simp [interrupt, ifFirstThreadDead, Guarded, raises, goesOn, wait_guarded]

theorem ensureProcessStopped_guarded (raises : raised.Guarded) (goesOn : next.Guarded) :
    (ensureProcessStopped config raised next).Guarded := by
  have joins : (joinAndCheckStatus raised next).Guarded := ⟨raises, goesOn⟩
  unfold ensureProcessStopped
  split
  · exact ⟨interrupt_guarded raises joins, goesOn⟩
  · exact ⟨joins, goesOn⟩

theorem changeStateFunctionProcess_guarded (goesOn : body.Guarded) :
    (changeStateFunctionProcess config body).Guarded :=
  ⟨ensureProcessStopped_guarded trivial ⟨trivial, trivial, goesOn⟩, trivial⟩

theorem changeStateFunctionThread_guarded (goesOn : body.Guarded) :
    (changeStateFunctionThread config body).Guarded :=
  ⟨ensureProcessStopped_guarded trivial ⟨trivial, goesOn⟩, trivial⟩

theorem kill_guarded (raises : raised.Guarded) (goesOn : next.Guarded) :
    (kill config raised next).Guarded := by
  have stopped : (killStopped raised next).Guarded := ⟨raises, raises, goesOn⟩
  exact ensureProcessStopped_guarded ⟨stopped, raises⟩ stopped

theorem restart_guarded (goesOn : next.Guarded) : (restart config next).Guarded :=
  ⟨kill_guarded trivial ⟨goesOn, goesOn⟩, goesOn, goesOn⟩

theorem enableAntidebugEscaping_guarded (goesOn : next.Guarded) :
    (enableAntidebugEscaping config next).Guarded := by
  unfold enableAntidebugEscaping
  split <;> exact goesOn

theorem putEach_guarded {command : Command} (other : command ≠ .peekMemory)
    (goesOn : next.Guarded) (handlers : Nat) : (putEach command next handlers).Guarded := by
  induction handlers with
  | zero => exact goesOn
  | succ handlers ih =>
      cases command with
      | peekMemory => exact absurd rfl other
      | _ => exact ih

end Program

open Program in
theorem Call.program_guarded (call : Call) : (call.program config).Guarded := by
  have joins : (joinAndCheckStatus .done .done).Guarded := ⟨trivial, trivial⟩
  cases call with
  | run =>
      exact ⟨trivial, restart_guarded ⟨enableAntidebugEscaping_guarded joins, trivial⟩⟩
  | attach => exact restart_guarded ⟨joins, trivial⟩
  | detach => exact ⟨ensureProcessStopped_guarded trivial joins, trivial⟩
  | kill => exact kill_guarded trivial trivial
  | terminate => exact ⟨trivial, trivial⟩
  | cont => exact changeStateFunctionProcess_guarded ⟨trivial, trivial⟩
  | interrupt => exact interrupt_guarded trivial trivial
  | wait => exact wait_guarded trivial trivial
  | breakpoint => exact changeStateFunctionProcess_guarded ⟨trivial, joins⟩
  | catchSignal => exact changeStateFunctionProcess_guarded ⟨trivial, joins⟩
  | hijackSignal =>
      exact changeStateFunctionProcess_guarded
        ⟨trivial, changeStateFunctionProcess_guarded ⟨trivial, joins⟩⟩
  | handleSyscall | hijackSyscall => exact changeStateFunctionProcess_guarded ⟨trivial, joins⟩
  | gdb =>
      exact changeStateFunctionProcess_guarded
        (interrupt_guarded trivial ⟨trivial, trivial, joins⟩)
  | step => exact changeStateFunctionThread_guarded (ensureProcessStopped_guarded trivial joins)
  | stepUntil => exact changeStateFunctionThread_guarded ⟨trivial, joins⟩
  | finish => exact changeStateFunctionThread_guarded joins
  | peekMemory => exact ⟨ensureProcessStopped_guarded trivial trivial, trivial⟩
  | pokeMemory => exact ⟨ensureProcessStopped_guarded trivial joins, trivial⟩
  | enablePrettyPrint handlers | disablePrettyPrint handlers =>
      exact ensureProcessStopped_guarded trivial (putEach_guarded (by decide) joins handlers)

/-! ### The accounts of the two queues -/

/-- The command issued last reads memory, and its answer has not been read. -/
def AwaitsPeek (history : List Note) : Prop :=
  ∃ earlier, issuedOf history = earlier ++ [.peekMemory] ∧
    (readOf history).length ≤
      (((executedOf history).take earlier.length).filterMap Prod.snd).length

structure Balanced (s : System) (history : List Note) : Prop where
  commandTaken : s.commands.taken = s.poller.busy.toNat
  responseTaken : s.responses.taken = s.main.acknowledges.toNat
  /-- what was issued has been executed, is being executed, or waits for it -/
  issued : issuedOf history =
    (executedOf history).map Prod.fst ++ s.poller.inHand ++ s.commands.items
  /-- what was answered has been read, or waits for it -/
  answers : (executedOf history).filterMap Prod.snd = readOf history ++ s.responses.items
  /-- the polling thread takes no command before its answer is acknowledged -/
  unread : s.responses.unfinished ≠ 0 →
    s.responses.unfinished = 1 ∧ (s.poller = .answered ∨ s.poller = .joining)
  last : ∀ answer ∈ s.responses.items, ∃ before command,
    executedOf history = before ++ [(command, some answer)]
  peekAnswers : ∀ answer, (.peekMemory, answer) ∈ executedOf history → answer.isSome = true

/-- Where the main thread may be. -/
def Program.Placed (drained : Prop) (history : List Note) : Program → Prop
  | .checkStatus raised next => drained ∧ raised.Guarded ∧ next.Guarded
  | .join (.getResponse next) => AwaitsPeek history ∧ next.Guarded
  | .getResponse next => drained ∧ AwaitsPeek history ∧ next.Guarded
  | program => program.Guarded

def MainThread.Placed (drained : Prop) (history : List Note) : MainThread → Prop
  | .executing program => program.Placed drained history
  | .acknowledging program | .joiningPoller program => program.Guarded

structure Accounted (s : System) (history : List Note) : Prop extends Balanced s history where
  placed : s.main.Placed (s.commands.unfinished = 0) history
  attributed : Attributed history

theorem Program.Guarded.placed {program : Program} {drained : Prop} {history : List Note}
    (guarded : program.Guarded) : program.Placed drained history := by
  unfold Program.Placed
  split
  · exact guarded.elim
  · exact guarded.elim
  · exact guarded.elim
  · exact guarded

section Balanced

variable {history : List Note}

theorem Balanced.initial : Balanced .initial [] where
  commandTaken := rfl
  responseTaken := rfl
  issued := rfl
  answers := rfl
  unread := by simp [System.initial, TaskQueue.unfinished, TaskQueue.empty]
  last := by simp [System.initial, TaskQueue.empty]
  peekAnswers := by simp [executedOf]

/-- After a join of the command queue everything issued has been executed. -/
theorem Balanced.all_executed (balanced : Balanced s history)
    (drained : s.commands.unfinished = 0) :
    issuedOf history = (executedOf history).map Prod.fst := by
  obtain ⟨empty, nothingTaken⟩ := Nat.add_eq_zero_iff.mp drained
  have idle : s.poller.inHand = [] := by
    have notBusy := balanced.commandTaken.symm.trans nothingTaken
    unfold Poller.inHand
    split
    · rename_i executing
      simp [executing, Poller.busy] at notBusy
    · rfl
  rw [balanced.issued, idle, List.eq_nil_of_length_eq_zero empty, List.append_nil,
    List.append_nil]

theorem Balanced.lastAnswer {answer : Response} {rest : List Response}
    (balanced : Balanced s history) (drained : s.commands.unfinished = 0)
    (unread : s.responses.items = answer :: rest) :
    rest = [] ∧ ∃ command, LastAnswer history command answer := by
  have one := (balanced.unread (by simp [TaskQueue.unfinished, unread])).1
  refine ⟨?_, ?_⟩
  · apply List.eq_nil_of_length_eq_zero
    simp only [TaskQueue.unfinished, unread, List.length_cons] at one
    omega
  · obtain ⟨before, command, executed⟩ := balanced.last answer (by simp [unread])
    refine ⟨command, before, executed, ?_⟩
    rw [balanced.all_executed drained, executed, List.map_append]
    rfl

/-- The answer that `_peek_memory` waits for is there after the join. -/
theorem Balanced.peek_answered (balanced : Balanced s history)
    (drained : s.commands.unfinished = 0) (awaits : AwaitsPeek history) :
    s.responses.items ≠ [] := by
  obtain ⟨earlier, issued, notRead⟩ := awaits
  obtain ⟨before, last, executed, commands, peek⟩ :=
    List.map_eq_append_iff.mp ((balanced.all_executed drained).symm.trans issued)
  obtain ⟨⟨command, answer⟩, rfl, rfl⟩ := List.map_eq_singleton_iff.mp peek
  obtain ⟨given, rfl⟩ := Option.isSome_iff_exists.mp
    (balanced.peekAnswers answer (by rw [executed]; simp))
  have answers := balanced.answers
  rw [← commands, List.length_map, executed, List.take_left] at notRead
  intro allRead
  rw [allRead, executed, List.append_nil, List.filterMap_append] at answers
  rw [← answers, List.length_append] at notRead
  exact absurd notRead (by simp)

theorem Balanced.all_acknowledged (balanced : Balanced s history)
    (notAnswered : s.poller ≠ .answered) (notJoining : s.poller ≠ .joining) :
    s.responses.items = [] ∧ s.responses.unfinished = 0 := by
  have none : s.responses.unfinished = 0 := by
    apply Decidable.byContradiction
    intro unread
    rcases (balanced.unread unread).2 with answered | joining
    · exact notAnswered answered
    · exact notJoining joining
  exact ⟨List.eq_nil_of_length_eq_zero (Nat.add_eq_zero_iff.mp none).1, none⟩

/-! ### Steps of the polling thread -/

theorem get_balanced (balanced : Balanced s history)
    (stepped : s.step config .get = some next) :
    Balanced next history ∧ next.main = s.main ∧
      next.commands.unfinished ≤ s.commands.unfinished := by
  simp only [System.step] at stepped
  split at stepped
  · rename_i command commands waiting taken
    obtain rfl := Option.some.inj stepped
    obtain ⟨items, count⟩ := TaskQueue.get?_eq_some.mp taken
    have acknowledged := (balanced.all_acknowledged (by simp [waiting]) (by simp [waiting])).2
    refine ⟨{ balanced with
      commandTaken := ?_
      issued := ?_
      unread := fun unread => absurd acknowledged unread }, rfl, ?_⟩
    · simp [count, balanced.commandTaken, waiting, Poller.busy]
    · simp [balanced.issued, waiting, items, Poller.inHand]
    · simp only [TaskQueue.unfinished, items, count, List.length_cons]
      omega
  · simp at stepped

theorem peekAnswers_concat {command : Command} {answer : Option Response}
    (balanced : Balanced s history)
    (answers : command = .peekMemory → answer.isSome = true) :
    ∀ given, (.peekMemory, given) ∈ executedOf (history ++ [.executed command answer]) →
      given.isSome = true := by
  intro given executed
  rw [executedOf_append] at executed
  rcases List.mem_append.mp executed with earlier | last
  · exact balanced.peekAnswers given earlier
  · obtain ⟨rfl, rfl⟩ := Prod.mk.inj (List.mem_singleton.mp last)
    exact answers rfl

/-- A command that gives no answer. -/
theorem silent_balanced {command : Command} {poller : Poller}
    (balanced : Balanced s history) (executing : s.poller = .executing command)
    (idle : poller.busy = false ∧ poller.inHand = []) (noPeek : command ≠ .peekMemory) :
    Balanced { s with commands := s.commands.taskDone, poller }
      (history ++ [.executed command none]) := by
  obtain ⟨empty, acknowledged⟩ :=
    balanced.all_acknowledged (by simp [executing]) (by simp [executing])
  refine ⟨?_, balanced.responseTaken, ?_, ?_, fun unread => absurd acknowledged unread, ?_,
    peekAnswers_concat balanced fun peek => absurd peek noPeek⟩
  · simp [balanced.commandTaken, executing, idle.1]
  · simp [balanced.issued, executing, idle.2]
  · simpa using balanced.answers
  · simp [empty]

theorem answered_balanced {command : Command} {response : Response}
    (balanced : Balanced s history) (executing : s.poller = .executing command) :
    Balanced { s with responses := s.responses.put response, poller := .answered }
      (history ++ [.executed command (some response)]) := by
  obtain ⟨empty, acknowledged⟩ :=
    balanced.all_acknowledged (by simp [executing]) (by simp [executing])
  have nothingTaken : s.responses.taken = 0 := (Nat.add_eq_zero_iff.mp acknowledged).2
  refine ⟨?_, balanced.responseTaken, ?_, ?_, fun _ => ⟨?_, .inl rfl⟩, ?_,
    peekAnswers_concat balanced fun _ => rfl⟩
  · simp [balanced.commandTaken, executing, Poller.busy]
  · simp [balanced.issued, executing, Poller.inHand]
  · simp [balanced.answers]
  · simp [TaskQueue.unfinished, empty, nothingTaken]
  · intro answer unread
    obtain rfl : answer = response := by simpa [empty] using unread
    exact ⟨executedOf history, command, by simp⟩

theorem executed_balanced {command : Command} {answer : Option Response}
    (balanced : Balanced s history) (executing : s.poller = .executing command)
    (stepped : s.executed command answer = some next) :
    Balanced next (history ++ [.executed command answer]) ∧ next.main = s.main ∧
      next.commands.unfinished ≤ s.commands.unfinished := by
  have fewer : s.commands.taskDone.unfinished ≤ s.commands.unfinished := by
    simp only [TaskQueue.unfinished, TaskQueue.taskDone_items, TaskQueue.taskDone_taken]
    omega
  unfold System.executed at stepped
  split at stepped
  · obtain rfl := Option.some.inj stepped
    exact ⟨silent_balanced balanced executing ⟨rfl, rfl⟩ (by decide), rfl, fewer⟩
  · simp at stepped
  · simp at stepped
  · rename_i noPeek
    obtain rfl := Option.some.inj stepped
    exact ⟨silent_balanced balanced executing ⟨rfl, rfl⟩ noPeek, rfl, fewer⟩
  · obtain rfl := Option.some.inj stepped
    exact ⟨answered_balanced balanced executing, rfl, Nat.le_refl _⟩

/-! ### Steps of the main thread -/

theorem Balanced.of_same (balanced : Balanced s history) (commands : next.commands = s.commands)
    (responses : next.responses = s.responses) (poller : next.poller = s.poller)
    (acknowledges : next.main.acknowledges = s.main.acknowledges) : Balanced next history where
  commandTaken := by rw [commands, poller, balanced.commandTaken]
  responseTaken := by rw [responses, acknowledges, balanced.responseTaken]
  issued := by rw [commands, poller, balanced.issued]
  answers := by rw [responses, balanced.answers]
  unread := by rw [responses, poller]; exact balanced.unread
  last := by rw [responses]; exact balanced.last
  peekAnswers := balanced.peekAnswers

theorem issued_balanced {command : Command} (balanced : Balanced s history)
    (commands : next.commands = s.commands.put command) (responses : next.responses = s.responses)
    (poller : next.poller = s.poller)
    (acknowledges : next.main.acknowledges = s.main.acknowledges) :
    Balanced next (history ++ [.issued command]) where
  commandTaken := by rw [commands, poller, TaskQueue.put_taken, balanced.commandTaken]
  responseTaken := by rw [responses, acknowledges, balanced.responseTaken]
  issued := by simp [commands, poller, balanced.issued]
  answers := by simpa [responses] using balanced.answers
  unread := by rw [responses, poller]; exact balanced.unread
  last := by simpa [responses] using balanced.last
  peekAnswers := by simpa using balanced.peekAnswers

/-- An answer is taken from the response queue. -/
theorem read_balanced {answer : Response} {note : Note} (balanced : Balanced s history)
    (acknowledged : s.main.acknowledges = false)
    (taken : s.responses.get? = some (answer, next.responses))
    (acknowledges : next.main.acknowledges = true) (commands : next.commands = s.commands)
    (poller : next.poller = s.poller) (reads : note.answer? = some answer) :
    Balanced next (history ++ [note]) := by
  obtain ⟨items, count⟩ := TaskQueue.get?_eq_some.mp taken
  have silent : issuedOf [note] = [] ∧ executedOf [note] = [] ∧ readOf [note] = [answer] := by
    cases note <;> simp_all [issuedOf, executedOf, readOf, Note.answer?]
  have noneTaken : s.responses.taken = 0 := by simp [balanced.responseTaken, acknowledged]
  have same : next.responses.unfinished = s.responses.unfinished := by
    simp only [TaskQueue.unfinished, items, count, List.length_cons]
    omega
  constructor
  · rw [commands, poller, balanced.commandTaken]
  · rw [count, noneTaken, acknowledges]
    rfl
  · simpa [silent, commands, poller] using balanced.issued
  · simp [silent, balanced.answers, items]
  · rw [same, poller]
    exact balanced.unread
  · intro given unread
    simpa [silent] using balanced.last given (items ▸ List.mem_cons_of_mem _ unread)
  · simpa [silent] using balanced.peekAnswers

theorem awaitsPeek_issued (balanced : Balanced s history) :
    AwaitsPeek (history ++ [.issued .peekMemory]) := by
  have fewer : (executedOf history).length ≤ (issuedOf history).length := by
    simp [balanced.issued]
  refine ⟨issuedOf history, by simp, ?_⟩
  simp [List.take_of_length_le fewer, balanced.answers]

theorem AwaitsPeek.executed {command : Command} {answer : Option Response}
    (awaits : AwaitsPeek history) : AwaitsPeek (history ++ [.executed command answer]) := by
  obtain ⟨earlier, issued, notRead⟩ := awaits
  refine ⟨earlier, by simpa using issued, ?_⟩
  simp only [readOf_append, readOf_executed, List.append_nil, executedOf_append, List.take_append,
    List.filterMap_append, List.length_append]
  omega

theorem Program.put_guarded {command : Command} {rest : Program}
    (guarded : (put command rest).Guarded) :
    rest.Guarded ∨
      ∃ next, command = .peekMemory ∧ rest = .join (.getResponse next) ∧ next.Guarded := by
  unfold Guarded at guarded
  split at guarded <;> simp_all

theorem issue_accounted {command : Command} (accounted : Accounted s history)
    (commands : next.commands = s.commands.put command) (responses : next.responses = s.responses)
    (poller : next.poller = s.poller) (acknowledges : next.main.acknowledges = s.main.acknowledges)
    (placed : next.main.Placed (next.commands.unfinished = 0) (history ++ [.issued command])) :
    Accounted next (history ++ [.issued command]) where
  toBalanced := issued_balanced accounted.toBalanced commands responses poller acknowledges
  placed := placed
  attributed := accounted.attributed.concat (by simp [Note.answer?])

/-- A step of the main thread that leaves the queues alone. -/
theorem move_accounted (accounted : Accounted s history) (commands : next.commands = s.commands)
    (responses : next.responses = s.responses) (poller : next.poller = s.poller)
    (acknowledges : next.main.acknowledges = s.main.acknowledges)
    (placed : next.main.Placed (s.commands.unfinished = 0) history) : Accounted next history where
  toBalanced := accounted.toBalanced.of_same commands responses poller acknowledges
  placed := by rwa [commands]
  attributed := accounted.attributed

theorem read_accounted {answer : Response} {note : Note} {rest : Program}
    (accounted : Accounted s history) (acknowledged : s.main.acknowledges = false)
    (drained : s.commands.unfinished = 0)
    (taken : s.responses.get? = some (answer, next.responses))
    (main : next.main = .acknowledging rest) (commands : next.commands = s.commands)
    (poller : next.poller = s.poller) (reads : note.answer? = some answer)
    (own : note = .got answer → AwaitsPeek history) (guarded : rest.Guarded) :
    Accounted next (history ++ [note]) where
  toBalanced := read_balanced accounted.toBalanced acknowledged taken (by rw [main]; rfl) commands
    poller reads
  placed := by rwa [main]
  attributed := by
    obtain ⟨items, -⟩ := TaskQueue.get?_eq_some.mp taken
    obtain ⟨-, command, last⟩ := accounted.toBalanced.lastAnswer drained items
    refine accounted.attributed.concat fun given read => ?_
    obtain rfl := Option.some.inj (reads.symm.trans read)
    refine ⟨command, last, fun gets => ?_⟩
    obtain ⟨earlier, issued, -⟩ := own gets
    obtain ⟨before, -, commandLast⟩ := last
    exact List.singleton_inj.mp (List.append_inj' (commandLast.symm.trans issued) rfl).2

theorem advance_accounted {choice : Bool} {program : Program} (accounted : Accounted s history)
    (executing : s.main = .executing program)
    (stepped : s.advance choice program = some next) :
    Accounted next (history ++ notes s (.main choice)) := by
  have acknowledged : s.main.acknowledges = false := by rw [executing]; rfl
  have placed := accounted.placed
  rw [executing] at placed
  have moves (rest : Program) (moved : next.main = .executing rest)
      (same : next.commands = s.commands ∧ next.responses = s.responses ∧ next.poller = s.poller)
      (quiet : notes s (.main choice) = [])
      (there : rest.Placed (s.commands.unfinished = 0) history) :
      Accounted next (history ++ notes s (.main choice)) := by
    rw [quiet, List.append_nil]
    refine move_accounted accounted same.1 same.2.1 same.2.2 ?_ (by rwa [moved])
    rw [moved, executing]
    rfl
  have noted : notes s (.main choice) =
      notes { s with main := .executing program } (.main choice) :=
    by rw [← executing]
  cases program with
  | done => simp [System.advance] at stepped
  | put command rest =>
      obtain rfl := Option.some.inj stepped
      rw [noted]
      refine issue_accounted accounted rfl rfl rfl acknowledged.symm ?_
      rcases Program.put_guarded placed with guarded | ⟨later, rfl, rfl, guarded⟩
      · exact guarded.placed
      · exact ⟨awaitsPeek_issued accounted.toBalanced, guarded⟩
  | terminate rest =>
      obtain rfl := Option.some.inj stepped
      rw [noted]
      exact issue_accounted accounted rfl rfl rfl acknowledged.symm placed
  | join rest =>
      simp only [System.advance] at stepped
      split at stepped
      · rename_i drained
        obtain rfl := Option.some.inj stepped
        refine moves rest rfl ⟨rfl, rfl, rfl⟩ noted ?_
        cases rest with
        | getResponse later => exact ⟨drained, placed⟩
        | checkStatus raised later => exact ⟨drained, placed⟩
        | _ => exact placed.elim
      · simp at stepped
  | checkStatus raised rest =>
      obtain ⟨drained, raises, goesOn⟩ := placed
      simp only [System.advance] at stepped
      split at stepped
      · rename_i none
        obtain rfl := Option.some.inj stepped
        refine moves rest rfl ⟨rfl, rfl, rfl⟩ (noted.trans ?_) goesOn.placed
        simp [notes, none]
      · rename_i answer responses taken
        obtain rfl := Option.some.inj stepped
        have reads : notes s (.main choice) = [.raised answer] := by
          simp [notes, executing, taken]
        rw [reads]
        exact read_accounted accounted acknowledged drained taken rfl rfl rfl rfl (by simp) raises
  | getResponse rest =>
      obtain ⟨drained, awaits, goesOn⟩ := placed
      obtain ⟨⟨answer, responses⟩, taken, rfl⟩ := Option.map_eq_some_iff.mp stepped
      have reads : notes s (.main choice) = [.got answer] := by
        simp [notes, executing, taken]
      rw [reads]
      exact read_accounted accounted acknowledged drained taken rfl rfl rfl rfl (fun _ => awaits)
        goesOn
  | ifRunning yes no | ifInstanced yes no | ifQueueEmpty yes no | ifPolling yes no
  | either yes no =>
      obtain rfl := Option.some.inj stepped
      refine moves _ rfl ⟨rfl, rfl, rfl⟩ noted ?_
      split
      · exact placed.1.placed
      · exact placed.2.placed
  | setInstanced instanced rest | clear rest =>
      obtain rfl := Option.some.inj stepped
      exact moves rest rfl ⟨rfl, rfl, rfl⟩ noted (Program.Guarded.placed placed)

theorem mainStep_accounted {choice : Bool} (accounted : Accounted s history)
    (stepped : s.mainStep choice = some next) :
    Accounted next (history ++ notes s (.main choice)) := by
  have placed := accounted.placed
  unfold System.mainStep at stepped
  split at stepped
  · rename_i program executing
    exact advance_accounted accounted executing stepped
  · rename_i rest acknowledging
    obtain rfl := Option.some.inj stepped
    rw [acknowledging] at placed
    have noted : notes s (.main choice) = [] := by simp [notes, acknowledging]
    have oneTaken : s.responses.taken = 1 := by
      simp [accounted.responseTaken, acknowledging, MainThread.acknowledges]
    have allDone : s.responses.taskDone.unfinished = 0 := by
      have one := (accounted.unread (by simp [TaskQueue.unfinished, oneTaken])).1
      simp only [TaskQueue.unfinished, TaskQueue.taskDone_items, TaskQueue.taskDone_taken,
        oneTaken] at one ⊢
      omega
    rw [noted, List.append_nil]
    have balanced := accounted.toBalanced
    refine { balanced with
      responseTaken := ?_
      unread := fun unread => absurd allDone unread
      placed := Program.Guarded.placed placed
      attributed := accounted.attributed }
    simp [oneTaken, System.proceed, MainThread.acknowledges]
  · rename_i rest joining
    rw [joining] at placed
    split at stepped
    · obtain rfl := Option.some.inj stepped
      have noted : notes s (.main choice) = [] := by simp [notes, joining]
      rw [noted, List.append_nil]
      refine move_accounted accounted rfl rfl rfl ?_ (Program.Guarded.placed placed)
      rw [joining]
      rfl
    · simp at stepped

end Balanced

theorem MainThread.Placed.mono {main : MainThread} {drained stillDrained : Prop}
    {history later : List Note} (placed : main.Placed drained history)
    (drains : drained → stillDrained) (awaits : AwaitsPeek history → AwaitsPeek later) :
    main.Placed stillDrained later := by
  cases main with
  | executing program =>
      cases program with
      | checkStatus => exact ⟨drains placed.1, placed.2⟩
      | getResponse => exact ⟨drains placed.1, awaits placed.2.1, placed.2.2⟩
      | join rest =>
          cases rest with
          | getResponse => exact ⟨awaits placed.1, placed.2⟩
          | _ => exact placed
      | _ => exact placed
  | acknowledging | joiningPoller => exact placed

section Steps

variable {history : List Note}

/-- A step of the polling thread leaves the main thread where it is. -/
theorem poller_accounted (accounted : Accounted s history) {later : List Note}
    (balanced : Balanced next later) (main : next.main = s.main)
    (fewer : next.commands.unfinished ≤ s.commands.unfinished)
    (awaits : AwaitsPeek history → AwaitsPeek later) (attributed : Attributed later) :
    Accounted next later where
  toBalanced := balanced
  placed := by
    rw [main]
    exact accounted.placed.mono (fun drained => Nat.le_zero.mp (drained ▸ fewer)) awaits
  attributed := attributed

theorem executed_accounted {answer : Option Response} (accounted : Accounted s history)
    (stepped : s.step config (.executed answer) = some next) :
    Accounted next (history ++ notes s (.executed answer)) := by
  simp only [System.step] at stepped
  split at stepped
  · rename_i command executing
    have noted : notes s (.executed answer) = [.executed command answer] := by
      simp [notes, executing]
    rw [noted]
    obtain ⟨balanced, main, fewer⟩ := executed_balanced accounted.toBalanced executing stepped
    exact poller_accounted accounted balanced main fewer AwaitsPeek.executed
      (accounted.attributed.concat (by simp [Note.answer?]))
  · simp at stepped

theorem taskDone_accounted (accounted : Accounted s history)
    (stepped : s.step config .taskDone = some next) : Accounted next history := by
  simp only [System.step] at stepped
  split at stepped
  · rename_i answered
    obtain rfl := Option.some.inj stepped
    have balanced := accounted.toBalanced
    refine poller_accounted accounted { balanced with
      commandTaken := ?_
      issued := ?_
      unread := fun unread => ⟨(balanced.unread unread).1, .inr rfl⟩ } rfl ?_ id
      accounted.attributed
    · simp [balanced.commandTaken, answered, Poller.busy]
    · simp [balanced.issued, answered, Poller.inHand]
    · simp only [TaskQueue.unfinished, TaskQueue.taskDone_items, TaskQueue.taskDone_taken]
      omega
  · simp at stepped

theorem joined_accounted (accounted : Accounted s history)
    (stepped : s.step config .joined = some next) : Accounted next history := by
  simp only [System.step] at stepped
  split at stepped
  · rename_i drained
    obtain rfl := Option.some.inj stepped
    have balanced := accounted.toBalanced
    refine poller_accounted accounted { balanced with
      commandTaken := ?_
      issued := ?_
      unread := fun unread => absurd drained.2 unread } rfl (Nat.le_refl _) id
      accounted.attributed
    · simp [balanced.commandTaken, drained.1, Poller.busy]
    · simp [balanced.issued, drained.1, Poller.inHand]
  · simp at stepped

theorem step_accounted (accounted : Accounted s history)
    (stepped : s.step config event = some next) :
    Accounted next (history ++ notes s event) := by
  cases event with
  | call call =>
      simp only [System.step] at stepped
      split at stepped
      · rename_i idle
        obtain rfl := Option.some.inj stepped
        rw [notes, List.append_nil]
        refine move_accounted accounted rfl rfl rfl ?_ (Call.program_guarded call).placed
        rw [idle]
        rfl
      · simp at stepped
  | main choice => exact mainStep_accounted accounted stepped
  | get =>
      rw [notes, List.append_nil]
      obtain ⟨balanced, main, fewer⟩ := get_balanced accounted.toBalanced stepped
      exact poller_accounted accounted balanced main fewer id accounted.attributed
  | setRunning running =>
      simp only [System.step] at stepped
      split at stepped
      · obtain rfl := Option.some.inj stepped
        rw [notes, List.append_nil]
        exact move_accounted accounted rfl rfl rfl rfl accounted.placed
      · simp at stepped
  | executed answer => exact executed_accounted accounted stepped
  | taskDone =>
      rw [notes, List.append_nil]
      exact taskDone_accounted accounted stepped
  | joined =>
      rw [notes, List.append_nil]
      exact joined_accounted accounted stepped

end Steps

/-- In every interleaving the commands are executed in the order in which they were issued, each of
them once at most: what has been issued has been executed, is in hand or is still queued. The
answers are read in the order in which they were given, and there is at most one to read; what the
main thread reads is the answer to the command issued last, which for `_peek_memory` is its own
one, and is there when it looks. -/
theorem answers_attributed {events : List Event}
    (reached : (threads config).run .initial events = some s) :
    let history := (threads config).history notes .initial events
    issuedOf history = (executedOf history).map Prod.fst ++ s.poller.inHand ++ s.commands.items ∧
      (executedOf history).filterMap Prod.snd = readOf history ++ s.responses.items ∧
      s.responses.items.length ≤ 1 ∧ Attributed history ∧
      ∀ rest, s.main = .executing (.getResponse rest) → s.responses.items ≠ [] := by
  have accounted : Accounted s ((threads config).history notes .initial events) :=
    Machine.history_invariant (M := threads config) (motive := Accounted)
      (fun _ _ _ _ => step_accounted) []
      { Balanced.initial with
        placed := trivial
        attributed := fun _ _ _ none _ => by simp at none } reached
  refine ⟨accounted.issued, accounted.answers, ?_, accounted.attributed, ?_⟩
  · apply Decidable.byContradiction
    intro many
    have one := (accounted.unread (by unfold TaskQueue.unfinished; omega)).1
    unfold TaskQueue.unfinished at one
    omega
  · intro rest waiting
    have placed := accounted.placed
    rw [waiting] at placed
    exact accounted.peek_answered placed.1 placed.2.1

/-- What the `wait` behind `cont` raises is read by the call that follows. -/
theorem recovered_answer :
    let history := (threads plain).history notes .initial recovered
    executedOf history = [(.run, none), (.cont, none), (.wait, some .exception)] ∧
      readOf history = [.exception] ∧ Attributed history := by
  refine ⟨by decide, by decide, ?_⟩
  obtain ⟨s, reached, -⟩ : ∃ s, (threads plain).run .initial recovered = some s ∧
      s.main.acknowledges = true := Machine.exists_of_run (by decide)
  exact (answers_attributed reached).2.2.2.1

end Libdebug.InternalDebugger
