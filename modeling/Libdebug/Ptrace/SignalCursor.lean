import Libdebug.Foundation.Loops
import Libdebug.Ptrace.SentSignals

/-!
The cursor of `forward_signal`. One branch of the loop goes on without advancing it: where a node
is on the list of those to forward to, and its thread context is gone. The loop would never get
past such a node. There is none: whatever has been registered, has died, and been put on the list,
each node has a live thread context.
-/

namespace Libdebug.Ptrace

open Libdebug.Foundation Libdebug.Cffi

variable {K : Type}

/-! ### The loop -/

/-- What stands before the cursor, and the debugger -/
abbrev Cursor (K : Type) := List Thread × Debugger K

/-- The number of the thread goes to its node. -/
def Debugger.forwardTo (s : Debugger K) (node : Thread) (thread : Nat) : Debugger K :=
  { s.updateThread thread ({ · with signalNumber := 0 }) with
    globalState := s.globalState.forward node.regs (s.signalNumber thread) }

/-- One turn of the loop, or its end -/
def Cursor.turn : Cursor K → Cursor K ⊕ Debugger K
  | ([], s) => .inr s
  | (cursor :: next, s) =>
      if cursor.tid ∈ s.resumeContext.threadsWithSignalsToForward then
        match s.getThreadById cursor.tid with
        -- the thread is dead in the meantime: `continue`
        | none => .inl (cursor :: next, s)
        | some thread =>
            if s.signalNumber thread ≠ 0 ∧ s.signalNumber thread ∉ s.signalsToBlock then
              .inl (next, s.forwardTo cursor thread)
            else .inl (next, s)
      else .inl (next, s)

/-- The loop begins at `t_HEAD`. -/
def Debugger.cursor (s : Debugger K) : Cursor K := (s.globalState.tHead, s)

def Cursor.Moves (c d : Cursor K) : Prop := c.turn = .inl d

/-- The cursor is at a node that is listed and has no thread context. -/
def Cursor.Stuck (c : Cursor K) : Prop :=
  ∃ node rest, c.1 = node :: rest ∧
    node.tid ∈ c.2.resumeContext.threadsWithSignalsToForward ∧ c.2.getThreadById node.tid = none

/-- The loop gets stuck nowhere, and ends with one turn for each node. -/
structure Debugger.OnePass (s : Debugger K) : Prop where
  advances : ∀ c, Relation.ReflTransGen Cursor.Moves s.cursor c → ¬ c.Stuck
  ends : ∃ t, Loop.iterate Cursor.turn (s.globalState.tHead.length + 1) s.cursor = some t

section Loop

variable {s t : Debugger K} {node : Thread} {rest nodes : List Thread} {c d : Cursor K}

/-- The branch that does not advance is never left. -/
theorem not_ends_of_stuck (stuck : c.Stuck) : ¬ Loop.Ends Cursor.turn c t := by
  obtain ⟨nodes, s⟩ := c
  obtain ⟨node, rest, rfl, listed, gone⟩ := stuck
  have stays : Cursor.turn (node :: rest, s) = .inl (node :: rest, s) := by
    rw [Cursor.turn, if_pos listed, gone]
  rintro ⟨fuel, ended⟩
  induction fuel with
  | zero => cases ended
  | succ fuel ih =>
      rw [Loop.iterate, stays] at ended
      exact ih ended

theorem run_forwardSignalTo : (forwardSignalTo node).run s =
    if node.tid ∈ s.resumeContext.threadsWithSignalsToForward then
      match s.getThreadById node.tid with
      | none => .error .hang s
      | some thread =>
          if s.signalNumber thread ≠ 0 ∧ s.signalNumber thread ∉ s.signalsToBlock then
            .ok () (s.forwardTo node thread)
          else .ok () s
    else .ok () s := by
  rw [forwardSignalTo, EStateM.run_bind, EStateM.run_get]
  dsimp only
  by_cases listed : node.tid ∈ s.resumeContext.threadsWithSignalsToForward
  · rw [if_pos listed, if_pos listed]
    cases s.getThreadById node.tid with
    | none => rfl
    | some thread =>
        dsimp only
        by_cases allowed : s.signalNumber thread ≠ 0 ∧ s.signalNumber thread ∉ s.signalsToBlock
        · rw [if_pos allowed, if_pos allowed]
          rfl
        · rw [if_neg allowed, if_neg allowed]
          rfl
  · rw [if_neg listed, if_neg listed]
    rfl

/-- A turn does to a node what `forwardSignalTo` does, if that returns. -/
theorem turn_of_forwarded (returned : (forwardSignalTo node).run s = .ok () t) :
    Cursor.turn (node :: rest, s) = .inl (rest, t) := by
  rw [run_forwardSignalTo] at returned
  rw [Cursor.turn]
  by_cases listed : node.tid ∈ s.resumeContext.threadsWithSignalsToForward
  · rw [if_pos listed] at returned ⊢
    cases found : s.getThreadById node.tid with
    | none =>
        rw [found] at returned
        cases returned
    | some thread =>
        rw [found] at returned
        dsimp only at returned ⊢
        by_cases allowed : s.signalNumber thread ≠ 0 ∧ s.signalNumber thread ∉ s.signalsToBlock
        · rw [if_pos allowed] at returned ⊢
          cases returned
          rfl
        · rw [if_neg allowed] at returned ⊢
          cases returned
          rfl
  · rw [if_neg listed] at returned ⊢
    cases returned
    rfl

theorem stuck_of_raised {e : Abort} (raised : (forwardSignalTo node).run s = .error e t) :
    Cursor.Stuck (node :: rest, s) := by
  rw [run_forwardSignalTo] at raised
  by_cases listed : node.tid ∈ s.resumeContext.threadsWithSignalsToForward
  · rw [if_pos listed] at raised
    cases gone : s.getThreadById node.tid with
    | none => exact ⟨node, rest, rfl, listed, gone⟩
    | some thread =>
        rw [gone] at raised
        dsimp only at raised
        split at raised <;> cases raised
  · rw [if_neg listed] at raised
    cases raised

/-- **The loop over the nodes is the loop of the cursor**: it returns if and only if the cursor
gets to the end. -/
theorem forward_ok_iff : (nodes.forM forwardSignalTo).run s = .ok ⟨⟩ t ↔
    Loop.Ends Cursor.turn (nodes, s) t := by
  induction nodes generalizing s with
  | nil =>
      have atEnd : Cursor.turn (([], s) : Cursor K) = .inr s := rfl
      rw [Loop.ends_of_done atEnd]
      constructor
      · intro returned
        cases returned
        rfl
      · rintro rfl
        rfl
  | cons node rest ih =>
      change (forwardSignalTo node >>= fun _ => rest.forM forwardSignalTo).run s = _ ↔ _
      rw [EStateM.run_bind]
      rcases first : (forwardSignalTo node).run s with ⟨_, r⟩ | ⟨e, r⟩
      · rw [Loop.ends_of_next (turn_of_forwarded first)]
        exact ih
      · constructor
        · intro returned
          cases returned
        · exact fun ended => absurd ended (not_ends_of_stuck (stuck_of_raised first))

end Loop

/-! ### One pass -/

section Pass

variable {s : Debugger K} {c d : Cursor K}

/-- The cursor stands before nodes of the list, and every thread is what it was. -/
structure Cursor.Within (s : Debugger K) (c : Cursor K) : Prop where
  nodes : c.1 <:+ s.globalState.tHead
  identities : c.2.identities = s.identities

theorem Cursor.Within.not_stuck (within : c.Within s) (traced : Traced s) : ¬ c.Stuck := by
  rintro ⟨node, rest, here, -, gone⟩
  have listed : node ∈ s.globalState.tHead := within.nodes.subset (here ▸ List.mem_cons_self)
  obtain ⟨thread, found⟩ := (traced.known _ (List.mem_map_of_mem listed)).found
  have same := Debugger.getThreadById_of_identities within.identities node.tid
  rw [gone, found] at same
  cases same

/-- A turn advances the cursor. -/
theorem Cursor.Within.turn {node : Thread} {rest : List Thread} {t : Debugger K}
    (within : Cursor.Within s (node :: rest, t)) (traced : Traced s) :
    ∃ next, Cursor.turn (node :: rest, t) = .inl (rest, next) ∧ Cursor.Within s (rest, next) := by
  have listed : node ∈ s.globalState.tHead := within.nodes.subset List.mem_cons_self
  have known : t.Knows node.tid := by
    rw [Debugger.Knows, within.identities]
    exact traced.known _ (List.mem_map_of_mem listed)
  obtain ⟨next, forwarded, same⟩ := forwardSignalTo_returns known
  refine ⟨next, turn_of_forwarded forwarded, ?_, same.trans within.identities⟩
  exact (List.suffix_cons node rest).trans within.nodes

theorem Cursor.Within.moves (within : c.Within s) (traced : Traced s) (moves : c.Moves d) :
    d.Within s := by
  obtain ⟨nodes, t⟩ := c
  cases nodes with
  | nil => cases moves
  | cons node rest =>
      obtain ⟨next, turned, after⟩ := within.turn traced
      rw [Cursor.Moves, turned] at moves
      cases moves
      exact after

theorem Cursor.Within.iterate {nodes : List Thread} {t : Debugger K}
    (within : Cursor.Within s (nodes, t)) (traced : Traced s) :
    ∃ final, Loop.iterate Cursor.turn (nodes.length + 1) (nodes, t) = some final := by
  induction nodes generalizing t with
  | nil => exact ⟨t, rfl⟩
  | cons node rest ih =>
      obtain ⟨next, turned, after⟩ := within.turn traced
      obtain ⟨final, ended⟩ := ih after
      refine ⟨final, ?_⟩
      rw [List.length_cons, Loop.iterate, turned]
      exact ended

theorem onePass_of_traced (traced : Traced s) : s.OnePass := by
  have start : s.cursor.Within s := ⟨List.suffix_rfl, rfl⟩
  constructor
  · intro c visited
    have within : c.Within s := by
      induction visited with
      | refl => exact start
      | tail _ moves ih => exact ih.moves traced moves
    exact within.not_stuck traced
  · exact start.iterate traced

end Pass

/-! ### Births and deaths -/

/-- What the list of threads may go through, in any order -/
inductive Occurrence where
  | command (command : Command)
  | unregisterThread (threadId : Int) (exitCode exitSignal : Option Nat)
  /-- the thread is put on the list of those to forward to, be it dead or alive -/
  | queue (threadId : Int)
  /-- `clear`, and `reset` of the interface, before another run -/
  | restart

/-- `free_thread_list` -/
def freeThreadList (g : GlobalState) : GlobalState := { g with tHead := [], deadTHead := [] }

namespace Debugger

variable (s : Debugger K)

def queue (threadId : Int) : Debugger K :=
  { s with resumeContext :=
      { s.resumeContext with
        threadsWithSignalsToForward := s.resumeContext.threadsWithSignalsToForward ++ [threadId] } }

def clear : Debugger K :=
  { s with
    breakpoints := .empty
    handledSyscalls := .empty
    caughtSignals := .empty
    signalsToBlock := []
    processId := 0
    threads := []
    resumeContext := {} }

def reset : Debugger K :=
  { s with
    hardwareBpHelpers := .empty
    globalState := freeBreakpoints (freeThreadList s.globalState) }

end Debugger

section Histories

variable (k : Kernel K) (u : UserCode K)

/-- What raises leaves the state it has reached. -/
def Debugger.undergo (s : Debugger K) : Occurrence → Option (Debugger K)
  | .command command => s.command k u command
  | .unregisterThread threadId exitCode exitSignal =>
      some (stateAfter (unregisterThread threadId exitCode exitSignal) s)
  | .queue threadId => some (s.queue threadId)
  | .restart => some s.clear.reset

def history : Machine (Debugger K) Occurrence := ⟨Debugger.undergo k u⟩

variable {k u} {s next : Debugger K}

theorem traced_restart (s : Debugger K) : Traced s.clear.reset where
  nodes := ⟨List.nodup_nil, List.nodup_nil, fun _ member => absurd member List.not_mem_nil⟩
  known _ member := absurd member List.not_mem_nil

theorem undergo_traced (traced : Traced s) {occurrence : Occurrence}
    (underwent : s.undergo k u occurrence = some next) : Traced next := by
  cases occurrence with
  | command command =>
      exact Debugger.stateAfter_of_command underwent ▸ program_traced command s traced
  | unregisterThread threadId exitCode exitSignal =>
      cases underwent
      exact unregisterThread_traced threadId exitCode exitSignal s traced
  | queue threadId =>
      cases underwent
      exact traced.of_ids rfl rfl rfl
  | restart =>
      cases underwent
      exact traced_restart s

/-- **`forward_signal` terminates**, whatever has become of the threads: the cursor never meets a
listed node without a live thread context, and is past the last node after one turn for each. -/
theorem forward_signal_one_pass {world : World K} {occurrences : List Occurrence} {s : Debugger K}
    (reached : (history k u).run (.initial world) occurrences = some s) : s.OnePass := by
  apply onePass_of_traced
  apply Machine.run_invariant (motive := Traced) _ (traced_initial world) Machine.meets_always
    reached
  exact fun s occurrence next traced _ underwent => undergo_traced traced underwent

end Histories

/-- Thread 2 dies and its id is given away again, then the second thread of that id dies as well;
its context stays alive without a node, and it is the one that is found for the third. -/
def reusedId : List Occurrence :=
  [.command (.registerNewThread 1), .command (.registerNewThread 2), .queue 2,
    .unregisterThread 2 (some 0) none, .command (.registerNewThread 2),
    .unregisterThread 2 (some 0) none, .queue 2, .command (.registerNewThread 2), .queue 2]

theorem reused_id_one_pass : ∃ s, (history scripted idle).run
    (.initial (.nops { registers := fun _ => some fun _ => 0 })) reusedId = some s ∧ s.OnePass := by
  obtain ⟨s, reached⟩ : ∃ s, (history scripted idle).run
      (.initial (.nops { registers := fun _ => some fun _ => 0 })) reusedId = some s :=
    Option.isSome_iff_exists.mp (by decide +kernel)
  exact ⟨s, reached, forward_signal_one_pass reached⟩

end Libdebug.Ptrace
