import Libdebug.Foundation.Chains
import Libdebug.Ptrace.StatusHandler

/-!
The callbacks of syscall handlers and of signal catchers may replace the number they
were called for, and the handler of the new number may then have its turn. Both engines
keep the set of the numbers of the chain, and raise where a recursive one leads back
into it.
-/

namespace Libdebug.Ptrace

open Libdebug.Foundation Libdebug.Cffi

variable {K : Type} (u : UserCode K)

/-! ### What a chain is -/

/-- The handler of the system call is recursive or not, and its callback on enter stops
returns in state `t`, with another number in the place of this one. -/
structure RewritesSyscall (thread : ThreadContext) (recursive : Bool) (number : Nat)
    (s : Debugger K) (after : Nat) (t : Debugger K) : Prop where
  called : ∃ handler callback, s.handledSyscalls.get? number = some handler ∧
    handler.onEnterUser = some callback ∧ handler.enabled = true ∧
    handler.recursive = recursive ∧
    (runCallback u (.onEnter number) callback thread.threadId).run s = .ok () t
  shown : t.syscallNumber thread = after
  another : after ≠ number

/-- A recursive handler hands over to the handler of another system call. -/
def HijacksSyscall (thread : ThreadContext) (number : Nat) (s : Debugger K) (after : Nat)
    (t : Debugger K) : Prop :=
  RewritesSyscall u thread true number s after t ∧ after ∈ t.handledSyscalls.keys

def Debugger.countCatch (s : Debugger K) (signalNumber : Nat) : Debugger K :=
  s.updateCatcher signalNumber fun c => { c with hitCount := c.hitCount + 1 }

/-- The catcher of the signal is recursive or not, and its callback returns in state `t`,
with another signal in the place of this one. -/
structure RewritesSignal (thread : Nat) (threadId : Int) (recursive : Bool) (number : Nat)
    (s : Debugger K) (after : Nat) (t : Debugger K) : Prop where
  called : ∃ catcher callback, s.caughtSignals.get? number = some catcher ∧
    catcher.callback = some callback ∧ catcher.enabled = true ∧
    catcher.recursive = recursive ∧
    (runCallback u (.signal number) callback threadId).run (s.countCatch number) = .ok () t
  named : hasSignalName number = true
  shown : t.signalNumber thread = after
  another : after ≠ number

/-- A recursive catcher hands over to the catcher of another signal. -/
def HijacksSignal (thread : Nat) (threadId : Int) (number : Nat) (s : Debugger K) (after : Nat)
    (t : Debugger K) : Prop :=
  RewritesSignal u thread threadId true number s after t ∧ after ∈ t.caughtSignals.keys ∧
    hasSignalName after = true

/-- The chain from here on leads to a number that a recursive handler, or one that is not,
replaces by a number of the chain. -/
def ClosesLoop (link : Nat → Debugger K → Nat → Debugger K → Prop)
    (rewrites : Bool → Nat → Debugger K → Nat → Debugger K → Prop) (p : Place Nat (Debugger K))
    (recursive : Bool) : Prop :=
  ∃ q after t, Reaches link p q ∧ rewrites recursive q.current q.state after t ∧
    after ∈ q.visited

/-- A loop closes on the chain of system calls from the one that the thread enters. -/
def Debugger.ClosesSyscallLoop (s : Debugger K) (threadId : Int) (recursive : Bool) : Prop :=
  ∃ thread handler, (s.getThreadById threadId).bind (s.threads[·]?) = some thread ∧
    s.handledSyscalls.get? (s.syscallNumber thread) = some handler ∧
    handler.hasEntered = false ∧
    ClosesLoop (HijacksSyscall u thread) (RewritesSyscall u thread)
      ⟨s.syscallNumber thread, [], s⟩ recursive

/-- A loop closes on the chain of signals from the one that the thread has received. -/
def Debugger.ClosesSignalLoop (s : Debugger K) (thread : Nat) (threadId : Int)
    (recursive : Bool) : Prop :=
  ClosesLoop (HijacksSignal u thread threadId) (RewritesSignal u thread threadId)
    ⟨s.signalNumber thread, [], s⟩ recursive

/-- A function of the user has just raised the error. -/
def RaisedBy (error : PyError) (t : Debugger K) : Prop :=
  ∃ callback threadId before, (u callback threadId before).2 = some error ∧
    t = before.performAll (u callback threadId before).1

/-- The program ends, calls no function of the user twice from one place, and raises an
error of its own exactly if a loop closes through a recursive handler. -/
structure DetectsLoops (program : Py K Unit) (s : Debugger K) (message : String)
    (closes : Bool → Prop) : Prop where
  ends : ∀ t, program.run s ≠ .error .hang t ∧ program.run s ≠ .error .crash t
  once : ∃ calls, (stateAfter program s).called = calls ++ s.called ∧ calls.Nodup
  sound : ∀ text t, program.run s = .error (.raised (.runtimeError text)) t →
    (text = message ∧ closes true) ∨ RaisedBy u (.runtimeError text) t
  complete : closes true → ∃ t, program.run s = .error (.raised (.runtimeError message)) t
  nonrecursive : closes false → ∃ t, program.run s = .ok () t

def syscallLoop : String :=
  "Syscall hijacking loop detected. Check your code to avoid infinite loops."

def signalLoop : String :=
  "Signal hijacking loop detected. Check your script to avoid infinite loops."

variable {u} {s t : Debugger K}

/-! ### Calls of functions of the user -/

theorem runCallback_cases (site : CallSite) (callback : Callback) (threadId : Int)
    (s : Debugger K) :
    ∃ t, t.called = (site, threadId) :: s.called ∧
      ((runCallback u site callback threadId).run s = .ok () t ∨
        ∃ error, (runCallback u site callback threadId).run s = .error (.raised error) t ∧
          RaisedBy u error t) := by
  let noted := s.noteCall (site, threadId)
  refine ⟨noted.performAll (u callback threadId noted).1, Debugger.called_performAll noted _, ?_⟩
  cases ended : (u callback threadId (s.noteCall (site, threadId))).2 with
  | none => exact .inl (run_runCallback ended)
  | some error =>
      refine .inr ⟨error, ?_, ⟨callback, threadId, noted, ended, rfl⟩⟩
      simp only [runCallback, EStateM.run_bind, EStateM.run_modify, EStateM.run_get, ended]
      rfl

theorem called_of_runCallback {site : CallSite} {callback : Callback} {threadId : Int}
    (returned : (runCallback u site callback threadId).run s = .ok () t) :
    t.called = (site, threadId) :: s.called := by
  obtain ⟨next, called, ok | ⟨error, raised, -⟩⟩ :=
    runCallback_cases (u := u) site callback threadId s
  · cases ok.symm.trans returned
    exact called
  · cases raised.symm.trans returned

namespace Debugger

theorem keys_perform (s : Debugger K) (action : Action) :
    (s.perform action).handledSyscalls.keys = s.handledSyscalls.keys ∧
      (s.perform action).caughtSignals.keys = s.caughtSignals.keys := by
  cases action with
  | setSignal thread signal =>
      simp only [perform, setSignal]
      split <;> exact ⟨rfl, rfl⟩
  | enableHandler number | disableHandler number => exact ⟨Dict.keys_modify, rfl⟩
  | enableCatcher number | disableCatcher number => exact ⟨rfl, Dict.keys_modify⟩
  | _ => exact ⟨rfl, rfl⟩

theorem keys_performAll (s : Debugger K) (actions : List Action) :
    (s.performAll actions).handledSyscalls.keys = s.handledSyscalls.keys ∧
      (s.performAll actions).caughtSignals.keys = s.caughtSignals.keys := by
  induction actions generalizing s with
  | nil => exact ⟨rfl, rfl⟩
  | cons action rest ih =>
      obtain ⟨handled, caught⟩ := ih (s.perform action)
      obtain ⟨handledHere, caughtHere⟩ := s.keys_perform action
      exact ⟨handled.trans handledHere, caught.trans caughtHere⟩

end Debugger

/-- Functions of the user neither add nor remove handlers or catchers. -/
theorem keys_of_runCallback {site : CallSite} {callback : Callback} {threadId : Int}
    (returned : (runCallback u site callback threadId).run s = .ok () t) :
    t.handledSyscalls.keys = s.handledSyscalls.keys ∧
      t.caughtSignals.keys = s.caughtSignals.keys := by
  rw [← stateAfter_of_ok returned, stateAfter_runCallback]
  exact Debugger.keys_performAll _ _

/-! ### Walks that detect loops -/

/-- A turn that ends does so by returning, by raising what a callback raised, or by
raising that a recursive one has closed a loop. -/
inductive TurnEnds (rewrites : Bool → Nat → Debugger K → Nat → Debugger K → Prop)
    (message : String) (p : Place Nat (Debugger K)) : EStateM.Result Abort (Debugger K) Unit → Prop
  | returns (t : Debugger K) : TurnEnds rewrites message p (.ok () t)
  | raises {error : PyError} {t : Debugger K} (raised : RaisedBy u error t ∨
      ∀ text, error ≠ .runtimeError text) : TurnEnds rewrites message p (.error (.raised error) t)
  | loops {after : Nat} {t : Debugger K} (closed : rewrites true p.current p.state after t)
      (visited : after ∈ p.visited) :
      TurnEnds rewrites message p (.error (.raised (.runtimeError message)) t)

/-- The numbers of the table are visited once each, so the walk ends; and it raises that
there is a loop where a turn does. -/
theorem detectsLoops_walk {body : Body Abort (Debugger K) Nat} {leave : Nat → Py K Unit}
    {table : Debugger K → List Nat} {link : Nat → Debugger K → Nat → Debugger K → Prop}
    {rewrites : Bool → Nat → Debugger K → Nat → Debugger K → Prop} {message : String}
    {fuel : Nat} (chained : ChainBody body leave table link) (site : Nat → CallSite × Int)
    (injective : site.Injective)
    (ends : ∀ p result, Ends body p result → TurnEnds (u := u) rewrites message p result)
    (logs : ∀ p result, Ends body p result → LogsOnce (·.called) site p (finalState result))
    (follows : ∀ p q, Follows link p q → q.state.called = site p.current :: p.state.called)
    (leaves : ∀ number, Leaves (·.called) (leave number)) (start : Place Nat (Debugger K))
    (loops : ∀ {p after t}, Reaches link start p → rewrites true p.current p.state after t →
      after ∈ p.visited → ∃ t, Ends body p (.error (.raised (.runtimeError message)) t))
    (skips : ∀ {p after t}, Reaches link start p → rewrites false p.current p.state after t →
      after ∈ p.visited → ∃ t, Ends body p (.ok () t))
    (enough : unvisited (table start.state) start.visited < fuel) :
    DetectsLoops u (walk body .hang fuel start.current start.visited) start.state message
      (ClosesLoop link rewrites start) := by
  obtain ⟨p, result, reached, here, passes⟩ :=
    chained.walk_reaches .hang start enough
  have ended := ends p result here
  constructor
  · intro t
    constructor <;> intro stuck <;> rw [stuck] at passes <;> cases ended
    case left.returns | right.returns => exact absurd passes (by rintro ⟨_, same⟩; cases same)
    all_goals cases passes
  · obtain ⟨turns, logged, nodup, -⟩ :=
      chained.walk_logsOnce .hang logs follows leaves start enough
    exact ⟨turns.map site, logged, nodup.map injective⟩
  · intro text t raised
    rw [raised] at passes
    cases ended with
    | returns last =>
        obtain ⟨_, same⟩ := passes
        cases same
    | raises cause =>
        cases passes
        rcases cause with by_user | other
        · exact .inr by_user
        · exact absurd rfl (other text)
    | loops closed visited =>
        cases passes
        exact .inl ⟨rfl, p, _, _, reached, closed, visited⟩
  · rintro ⟨q, after, t, led, rewritten, visited⟩
    obtain ⟨last, closed⟩ := loops led rewritten visited
    have passed := chained.walk_of_reaches .hang led closed enough
    exact ⟨last, passed⟩
  · rintro ⟨q, after, t, led, rewritten, visited⟩
    obtain ⟨last, skipped⟩ := skips led rewritten visited
    have passed := chained.walk_of_reaches .hang led skipped enough
    exact passed

/-- A program that has no chain to follow, and makes one call at most. -/
theorem detectsLoops_unchained {program : Py K Unit} {message : String} {closes : Bool → Prop}
    (open_chain : ∀ recursive, ¬ closes recursive) {t : Debugger K}
    (called : t.called = s.called ∨ ∃ call, t.called = call :: s.called)
    (ended : program.run s = .ok () t ∨
      ∃ error, program.run s = .error (.raised error) t ∧ RaisedBy u error t) :
    DetectsLoops u program s message closes := by
  have last : stateAfter program s = t := by
    rcases ended with returned | ⟨error, raised, -⟩
    · exact stateAfter_of_ok returned
    · exact stateAfter_of_error raised
  constructor
  · intro stuck
    rcases ended with returned | ⟨error, raised, -⟩
    · simp [returned]
    · simp [raised]
  · rw [last]
    rcases called with same | ⟨call, logged⟩
    · exact ⟨[], same, List.nodup_nil⟩
    · exact ⟨[call], logged, List.nodup_singleton call⟩
  · intro text stopped failed
    rcases ended with returned | ⟨error, raised, by_user⟩
    · rw [returned] at failed
      cases failed
    · rw [raised] at failed
      cases failed
      exact .inr by_user
  · exact fun closed => (open_chain _ closed).elim
  · exact fun closed => (open_chain _ closed).elim

theorem DetectsLoops.congr {program other : Py K Unit} {message : String}
    {closes closes' : Bool → Prop} (detects : DetectsLoops u program s message closes)
    (same : other.run s = program.run s) (iff : ∀ recursive, closes' recursive ↔ closes recursive) :
    DetectsLoops u other s message closes' := by
  have last : stateAfter other s = stateAfter program s := by
    simp only [stateAfter, same]
  constructor
  · simpa only [same] using detects.ends
  · simpa only [last] using detects.once
  · simpa only [same, iff] using detects.sound
  · simpa only [same, iff] using detects.complete
  · simpa only [same, iff] using detects.nonrecursive

/-! ### System calls -/

section Syscalls

variable {thread : ThreadContext} {p q : Place Nat (Debugger K)} {after : Nat}

/-- What follows the callbacks on an enter stop. -/
def leaveEnter (syscallNumber : Nat) : Py K Unit := do
  let s ← get
  if s.stopsOn syscallNumber then do
    setHasEntered syscallNumber
    modify (·.setResume false)

/-- One call of `_manage_syscall_on_enter`, given what it calls recursively. -/
def enterBody (u : UserCode K) (thread : ThreadContext) : Body Abort (Debugger K) Nat :=
  fun syscallNumber hijackedSet recurse => do
    let s ← get
    match s.handledSyscalls.get? syscallNumber with
    | none => pure ()
    | some handler => do
        enterHandler u thread syscallNumber handler hijackedSet recurse
        leaveEnter syscallNumber

theorem manageSyscallOnEnter_eq_walk (fuel : Nat) :
    manageSyscallOnEnter u thread fuel = walk (enterBody u thread) .hang fuel := by
  induction fuel with
  | zero => rfl
  | succ fuel ih =>
      funext syscallNumber hijackedSet
      rw [walk, ← ih]
      rfl

theorem leaveEnter_returns (syscallNumber : Nat) (s : Debugger K) :
    ∃ t, (leaveEnter syscallNumber : Py K Unit).run s = .ok () t ∧ t.called = s.called := by
  simp only [leaveEnter, EStateM.run_bind, EStateM.run_get]
  split
  · exact ⟨_, rfl, rfl⟩
  · exact ⟨s, rfl, rfl⟩

/-- What a callback that has returned leads to. -/
theorem enterBody_of_returned {handler : SyscallHandler} {callback : Callback}
    (found : p.state.handledSyscalls.get? p.current = some handler)
    (user : handler.onEnterUser = some callback) (enabled : handler.enabled = true)
    (returned : (runCallback u (.onEnter p.current) callback thread.threadId).run p.state =
      .ok () t) (recurse : Nat → List Nat → Py K Unit) :
    (enterBody u thread p.current p.visited recurse).run p.state =
      ((if t.syscallNumber thread = p.current then setHasEntered p.current
        else if t.syscallNumber thread ∉ t.handledSyscalls.keys then pure ()
        else if !handler.recursive then skipHijacked (t.syscallNumber thread)
        else if t.syscallNumber thread ∈ p.visited then raise (.runtimeError syscallLoop)
        else recurse (t.syscallNumber thread) (t.syscallNumber thread :: p.visited)) >>=
          fun _ => leaveEnter p.current).run t := by
  simp only [enterBody, EStateM.run_bind, EStateM.run_get, found, enterHandler, user, enabled,
    callOnEnter, returned]
  rfl

/-- What a callback that rewrites the number of a handled system call leads to. -/
theorem enterBody_of_rewrites {recursive : Bool}
    (rewrites : RewritesSyscall u thread recursive p.current p.state after t)
    (handled : after ∈ t.handledSyscalls.keys) (recurse : Nat → List Nat → Py K Unit) :
    (enterBody u thread p.current p.visited recurse).run p.state =
      ((if !recursive then skipHijacked after
        else if after ∈ p.visited then raise (.runtimeError syscallLoop)
        else recurse after (after :: p.visited)) >>= fun _ => leaveEnter p.current).run t := by
  obtain ⟨handler, callback, found, user, enabled, rfl, returned⟩ := rewrites.called
  rw [enterBody_of_returned found user enabled returned, rewrites.shown, if_neg rewrites.another,
    if_neg (not_not_intro handled)]

theorem enterHandler_silent {number : Nat} {handler : SyscallHandler}
    (silent : handler.onEnterUser = none ∨ handler.enabled = false) (hijackedSet : List Nat)
    (recurse : Nat → List Nat → Py K Unit) :
    enterHandler u thread number handler hijackedSet recurse =
      if handler.onEnterPprint || handler.onExitPprint || handler.onExitUser.isSome then
        setHasEntered number
      else pure () := by
  unfold enterHandler
  split
  · simp_all
  · rfl

theorem enterBody_silent {handler : SyscallHandler}
    (found : p.state.handledSyscalls.get? p.current = some handler)
    (silent : handler.onEnterUser = none ∨ handler.enabled = false) :
    ∃ t, Ends (enterBody u thread) p (.ok () t) ∧ t.called = p.state.called := by
  have same (recurse : Nat → List Nat → Py K Unit) :
      (enterBody u thread p.current p.visited recurse).run p.state =
        ((if handler.onEnterPprint || handler.onExitPprint || handler.onExitUser.isSome then
            setHasEntered p.current
          else pure ()) >>= fun _ => leaveEnter p.current).run p.state := by
    simp only [enterBody, EStateM.run_bind, EStateM.run_get, found, enterHandler_silent silent]
  by_cases tracked : handler.onEnterPprint || handler.onExitPprint || handler.onExitUser.isSome
  · obtain ⟨t, left, called⟩ := leaveEnter_returns p.current
      (p.state.updateHandler p.current ({ · with hasEntered := true }))
    exact ⟨t, fun recurse => by rw [same, if_pos tracked]; exact left, called⟩
  · obtain ⟨t, left, called⟩ := leaveEnter_returns p.current p.state
    exact ⟨t, fun recurse => by rw [same, if_neg tracked]; exact left, called⟩

theorem enterBody_cases (thread : ThreadContext) (p : Place Nat (Debugger K)) :
    (∃ t, Ends (enterBody u thread) p (.ok () t) ∧
      (t.called = p.state.called ∨
        t.called = (.onEnter p.current, thread.threadId) :: p.state.called)) ∨
    (∃ error t, Ends (enterBody u thread) p (.error (.raised error) t) ∧ RaisedBy u error t ∧
      t.called = (.onEnter p.current, thread.threadId) :: p.state.called) ∨
    ∃ recursive after t, RewritesSyscall u thread recursive p.current p.state after t ∧
      after ∈ t.handledSyscalls.keys := by
  cases found : p.state.handledSyscalls.get? p.current with
  | none =>
      refine .inl ⟨p.state, fun recurse => ?_, .inl rfl⟩
      simp only [enterBody, EStateM.run_bind, EStateM.run_get, found]
      rfl
  | some handler =>
      rcases user : handler.onEnterUser with _ | callback
      · obtain ⟨t, ends, called⟩ := enterBody_silent found (.inl user)
        exact .inl ⟨t, ends, .inl called⟩
      cases enabled : handler.enabled with
      | false =>
          obtain ⟨t, ends, called⟩ := enterBody_silent found (.inr enabled)
          exact .inl ⟨t, ends, .inl called⟩
      | true =>
          obtain ⟨t, called, returned | ⟨error, raised, by_user⟩⟩ :=
            runCallback_cases (u := u) (.onEnter p.current) callback thread.threadId p.state
          · by_cases kept : t.syscallNumber thread = p.current
            · obtain ⟨next, left, same⟩ := leaveEnter_returns p.current
                (t.updateHandler p.current ({ · with hasEntered := true }))
              refine .inl ⟨next, fun recurse => ?_, .inr (same.trans called)⟩
              rw [enterBody_of_returned found user enabled returned, if_pos kept]
              exact left
            by_cases handled : t.syscallNumber thread ∈ t.handledSyscalls.keys
            · exact .inr (.inr ⟨handler.recursive, t.syscallNumber thread, t,
                ⟨⟨handler, callback, found, user, enabled, rfl, returned⟩, rfl, kept⟩, handled⟩)
            · obtain ⟨next, left, same⟩ := leaveEnter_returns p.current t
              refine .inl ⟨next, fun recurse => ?_, .inr (same.trans called)⟩
              rw [enterBody_of_returned found user enabled returned, if_neg kept, if_pos handled]
              exact left
          · refine .inr (.inl ⟨error, t, fun recurse => ?_, by_user, called⟩)
            simp only [enterBody, EStateM.run_bind, EStateM.run_get, found, enterHandler, user,
              enabled, callOnEnter, raised]

theorem called_of_rewritesSyscall {recursive : Bool}
    (rewrites : RewritesSyscall u thread recursive p.current p.state after t) :
    t.called = (.onEnter p.current, thread.threadId) :: p.state.called := by
  obtain ⟨handler, callback, -, -, -, -, returned⟩ := rewrites.called
  exact called_of_runCallback returned

theorem enterBody_skips
    (rewrites : RewritesSyscall u thread false p.current p.state after t)
    (handled : after ∈ t.handledSyscalls.keys) :
    ∃ last, Ends (enterBody u thread) p (.ok () last) ∧ last.called = t.called := by
  obtain ⟨last, left, same⟩ := leaveEnter_returns p.current
    (t.updateHandler after ({ · with hasEntered := true, skipExit := true }))
  exact ⟨last, fun recurse => (enterBody_of_rewrites rewrites handled recurse).trans left, same⟩

theorem enterBody_loops
    (rewrites : RewritesSyscall u thread true p.current p.state after t)
    (handled : after ∈ t.handledSyscalls.keys) (visited : after ∈ p.visited) :
    Ends (enterBody u thread) p (.error (.raised (.runtimeError syscallLoop)) t) := by
  intro recurse
  rw [enterBody_of_rewrites rewrites handled, if_pos visited]
  rfl

theorem enterBody_chained : ChainBody (enterBody u thread) leaveEnter
    (·.handledSyscalls.keys) (HijacksSyscall u thread) where
  turn p := by
    rcases enterBody_cases (u := u) thread p with
      ⟨t, ends, -⟩ | ⟨error, t, ends, -⟩ | ⟨recursive, after, t, rewrites, handled⟩
    · exact .inl ⟨_, ends⟩
    · exact .inl ⟨_, ends⟩
    cases recursive with
    | false =>
        obtain ⟨last, ends, -⟩ := enterBody_skips rewrites handled
        exact .inl ⟨_, ends⟩
    | true =>
        by_cases visited : after ∈ p.visited
        · exact .inl ⟨_, enterBody_loops rewrites handled visited⟩
        · exact .inr ⟨⟨after, p.visited, t⟩, ⟨rewrites, handled⟩, visited, rfl⟩
  goesOn {p q} follows recurse := by
    rw [enterBody_of_rewrites follows.linked.1 follows.linked.2, if_neg follows.fresh,
      follows.visited]
    rfl
  listed follows := follows.linked.2
  fixed follows := by
    obtain ⟨handler, callback, -, -, -, -, returned⟩ := follows.linked.1.called
    exact (keys_of_runCallback returned).1
  leaves syscallNumber s := by
    obtain ⟨t, left, -⟩ := leaveEnter_returns syscallNumber s
    exact ⟨t, left⟩

/-- The place of a handler's callback in the history. -/
def enterSite (thread : ThreadContext) (number : Nat) : CallSite × Int :=
  (.onEnter number, thread.threadId)

theorem enterBody_ends {result : EStateM.Result Abort (Debugger K) Unit}
    (ends : Ends (enterBody u thread) p result) :
    TurnEnds (u := u) (RewritesSyscall u thread) syscallLoop p result ∧
      LogsOnce (·.called) (enterSite thread) p (finalState result) := by
  rcases enterBody_cases (u := u) thread p with
    ⟨t, ok, silent | called⟩ | ⟨error, t, raised, by_user, called⟩ |
      ⟨recursive, after, t, rewrites, handled⟩
  · obtain rfl := ends.unique ok
    exact ⟨.returns t, .of_same silent⟩
  · obtain rfl := ends.unique ok
    exact ⟨.returns t, .of_turn called⟩
  · obtain rfl := ends.unique raised
    exact ⟨.raises (.inl by_user), .of_turn called⟩
  have called := called_of_rewritesSyscall rewrites
  cases recursive with
  | false =>
      obtain ⟨last, ok, same⟩ := enterBody_skips rewrites handled
      obtain rfl := ends.unique ok
      exact ⟨.returns last, .of_turn (same.trans called)⟩
  | true =>
      by_cases visited : after ∈ p.visited
      · obtain rfl := ends.unique (enterBody_loops rewrites handled visited)
        exact ⟨.loops rewrites visited, .of_turn called⟩
      · have follows : Follows (HijacksSyscall u thread) p ⟨after, p.visited, t⟩ :=
          ⟨⟨rewrites, handled⟩, visited, rfl⟩
        exact absurd ends (enterBody_chained.not_ends follows .hang)

theorem leaveEnter_called (syscallNumber : Nat) :
    Leaves (·.called) (leaveEnter syscallNumber : Py K Unit) := by
  intro s
  obtain ⟨t, left, same⟩ := leaveEnter_returns syscallNumber s
  rw [Same, stateAfter_of_ok left, same]

/-- The calls on an enter stop. -/
theorem manageSyscallOnEnter_logsOnce (thread : ThreadContext) (number : Nat) (s : Debugger K)
    {fuel : Nat}
    (enough : s.handledSyscalls.keys.length < fuel) :
    LogsOnce (·.called) (enterSite thread) ⟨number, [], s⟩
      (stateAfter (manageSyscallOnEnter u thread fuel number [number]) s) := by
  rw [manageSyscallOnEnter_eq_walk]
  apply enterBody_chained.walk_logsOnce .hang (fun p result ends => (enterBody_ends ends).2)
    (fun p q follows => called_of_rewritesSyscall follows.linked.1) leaveEnter_called
    ⟨number, [], s⟩
  exact (unvisited_le _ _).trans_lt enough

theorem handled_of_visited {start : Place Nat (Debugger K)}
    (found : ∀ x ∈ start.visited, x ∈ start.state.handledSyscalls.keys)
    (reached : Reaches (HijacksSyscall u thread) start p) {recursive : Bool}
    (rewrites : RewritesSyscall u thread recursive p.current p.state after t)
    (visited : after ∈ p.visited) : after ∈ t.handledSyscalls.keys := by
  obtain ⟨handler, callback, -, -, -, -, returned⟩ := rewrites.called
  rw [(keys_of_runCallback returned).1]
  exact enterBody_chained.listed_reaches reached found after visited

theorem manageSyscallOnEnter_detectsLoops (thread : ThreadContext) {number : Nat}
    {handler : SyscallHandler}
    (found : s.handledSyscalls.get? number = some handler) :
    DetectsLoops u
      (manageSyscallOnEnter u thread (s.handledSyscalls.keys.length + 1) number [number]) s
      syscallLoop
      (ClosesLoop (HijacksSyscall u thread) (RewritesSyscall u thread) ⟨number, [], s⟩) := by
  have listed : ∀ x ∈ (Place.mk number [] s).visited, x ∈ s.handledSyscalls.keys := by
    intro x member
    obtain rfl := List.mem_singleton.mp member
    exact Dict.mem_keys.mpr ⟨handler, found⟩
  rw [manageSyscallOnEnter_eq_walk]
  apply detectsLoops_walk enterBody_chained (enterSite thread) _
    (fun p result ends => (enterBody_ends ends).1) (fun p result ends => (enterBody_ends ends).2)
    _ _ ⟨number, [], s⟩
  · intro p after t reached rewrites visited
    exact ⟨t, enterBody_loops rewrites (handled_of_visited listed reached rewrites visited) visited⟩
  · intro p after t reached rewrites visited
    obtain ⟨last, skipped, -⟩ :=
      enterBody_skips rewrites (handled_of_visited listed reached rewrites visited)
    exact ⟨last, skipped⟩
  · exact Nat.lt_succ_of_le (unvisited_le _ _)
  · intro one other same
    injection same with site
    injection site
  · intro p q follows
    exact called_of_rewritesSyscall follows.linked.1
  · exact leaveEnter_called

theorem callOnExit_cases (thread : ThreadContext) (number : Nat) (handler : SyscallHandler)
    (s : Debugger K) :
    ∃ t, (t.called = s.called ∨ ∃ call, t.called = call :: s.called) ∧
      ((callOnExit u thread number handler).run s = .ok () t ∨
        ∃ error, (callOnExit u thread number handler).run s = .error (.raised error) t ∧
          RaisedBy u error t) := by
  unfold callOnExit
  split
  · rename_i callback user enabled
    obtain ⟨t, called, ended⟩ :=
      runCallback_cases (u := u) (.onExit number) callback thread.threadId s
    exact ⟨t, .inr ⟨_, called⟩, ended⟩
  · exact ⟨s, .inl rfl, .inl rfl⟩

/-- On an exit stop one callback may be called. -/
theorem exitHandler_cases (number : Nat) (handler : SyscallHandler) (s : Debugger K) :
    ∃ t, (t.called = s.called ∨ ∃ call, t.called = call :: s.called) ∧
      ((exitHandler u thread number handler).run s = .ok () t ∨
        ∃ error, (exitHandler u thread number handler).run s = .error (.raised error) t ∧
          RaisedBy u error t) := by
  obtain ⟨t, called, returned | ⟨error, raised, by_user⟩⟩ := callOnExit_cases (u := u)
    thread number handler (s.updateHandler number fun h =>
      if h.enabled && !h.skipExit then { h with hitCount := h.hitCount + 1 } else h)
  · let left := t.updateHandler number ({ · with hasEntered := false, skipExit := false })
    refine ⟨if left.stopsOn number then left.setResume false else left, ?_, .inl ?_⟩
    · split <;> exact called
    · simp only [exitHandler, EStateM.run_bind, EStateM.run_modify, EStateM.run_get, returned]
      split <;> rfl
  · refine ⟨t, called, .inr ⟨error, ?_, by_user⟩⟩
    simp only [exitHandler, EStateM.run_bind, EStateM.run_modify, raised]

theorem handleSyscall_detectsLoops (s : Debugger K) (threadId : Int) :
    DetectsLoops u (handleSyscall u threadId) s syscallLoop (s.ClosesSyscallLoop u threadId) := by
  cases context : (s.getThreadById threadId).bind (s.threads[·]?) with
  | none =>
      apply detectsLoops_unchained _ (.inl (rfl : s.called = _)) (.inl _)
      · rintro recursive ⟨thread, handler, found, -⟩
        cases context.symm.trans found
      · simp only [handleSyscall, EStateM.run_bind, EStateM.run_get, context]
        rfl
  | some thread =>
  cases found : s.handledSyscalls.get? (s.syscallNumber thread) with
  | none =>
      apply detectsLoops_unchained _ (.inl (rfl : s.called = _)) (.inl _)
      · rintro recursive ⟨thread', handler, same, handled, -⟩
        cases context.symm.trans same
        cases found.symm.trans handled
      · simp only [handleSyscall, EStateM.run_bind, EStateM.run_get, context, found]
        rfl
  | some handler =>
  have handled : (handleSyscall u threadId).run s =
      (if handler.hasEntered then exitHandler u thread (s.syscallNumber thread) handler
        else manageSyscallOnEnter u thread (s.handledSyscalls.keys.length + 1)
          (s.syscallNumber thread) [s.syscallNumber thread]).run s := by
    simp only [handleSyscall, EStateM.run_bind, EStateM.run_get, context, found]
  cases entered : handler.hasEntered with
  | true =>
      obtain ⟨t, called, ended⟩ := exitHandler_cases (s.syscallNumber thread) handler s
      apply detectsLoops_unchained _ called
      · rw [handled, entered]
        exact ended
      · rintro recursive ⟨thread', handler', same, handled', outside, -⟩
        cases context.symm.trans same
        cases found.symm.trans handled'
        cases entered.symm.trans outside
  | false =>
      apply (manageSyscallOnEnter_detectsLoops thread found).congr
      · rw [handled, entered]
        rfl
      · intro recursive
        constructor
        · rintro ⟨thread', handler', same, -, -, chain⟩
          cases context.symm.trans same
          exact chain
        · intro chain
          exact ⟨thread, handler, context, found, entered, chain⟩

end Syscalls

/-! ### Signals -/

section Signals

variable {thread : Nat} {threadId : Int} {p q : Place Nat (Debugger K)} {after : Nat}

/-- One call of `_manage_caught_signal`, given what it calls recursively. -/
def catcherBody (u : UserCode K) (thread : Nat) (threadId : Int) : Body Abort (Debugger K) Nat :=
  fun signalNumber hijackedSet recurse => do
    let s ← get
    match s.caughtSignals.get? signalNumber with
    | none => pure ()
    | some catcher =>
        if !catcher.enabled then
          pure ()
        else do
          modify (·.countCatch signalNumber)
          resolveSignalName signalNumber
          match catcher.callback with
          | none => modify (·.setResume false)
          | some callback => do
              runCallback u (.signal signalNumber) callback threadId
              afterCatcher thread catcher signalNumber hijackedSet recurse

theorem manageCaughtSignal_eq_walk (fuel : Nat) :
    manageCaughtSignal u thread threadId fuel =
      walk (catcherBody u thread threadId) .hang fuel := by
  induction fuel with
  | zero => rfl
  | succ fuel ih =>
      funext signalNumber hijackedSet
      rw [walk, ← ih]
      rfl

theorem run_resolveSignalName {number : Nat} (named : hasSignalName number = true)
    (s : Debugger K) : (resolveSignalName number : Py K Unit).run s = .ok () s := by
  simp only [resolveSignalName, named, if_true]
  rfl

/-- What is raised for a signal without a name. -/
def unnamedSignal (number : Nat) : PyError := .valueError s!"Signal {number} not found."

theorem run_resolveSignalName_of_unnamed {number : Nat} (unnamed : hasSignalName number = false)
    (s : Debugger K) : (resolveSignalName number : Py K Unit).run s =
      .error (.raised (unnamedSignal number)) s := by
  simp only [resolveSignalName, unnamed, Bool.false_eq_true, if_false]
  rfl

theorem unnamedSignal_ne (number : Nat) (text : String) :
    unnamedSignal number ≠ .runtimeError text := PyError.noConfusion

/-- What a callback that replaces the signal by one that has a name leads to. -/
theorem catcherBody_of_rewrites {recursive : Bool}
    (rewrites : RewritesSignal u thread threadId recursive p.current p.state after t)
    (named : hasSignalName after = true) (recurse : Nat → List Nat → Py K Unit) :
    (catcherBody u thread threadId p.current p.visited recurse).run p.state =
      (if !recursive || after ∉ t.caughtSignals.keys then pure ()
        else if after ∈ p.visited then raise (.runtimeError signalLoop)
        else recurse after (after :: p.visited)).run t := by
  obtain ⟨catcher, callback, found, user, enabled, rfl, returned⟩ := rewrites.called
  simp only [catcherBody, EStateM.run_bind, EStateM.run_get, EStateM.run_modify, found, enabled,
    Bool.not_true, Bool.false_eq_true, if_false, run_resolveSignalName rewrites.named, user,
    returned, afterCatcher, rewrites.shown, rewrites.another, run_resolveSignalName named]
  rfl

theorem catcherBody_settles {recursive : Bool}
    (rewrites : RewritesSignal u thread threadId recursive p.current p.state after t)
    (named : hasSignalName after = true)
    (settled : recursive = false ∨ after ∉ t.caughtSignals.keys) :
    Ends (catcherBody u thread threadId) p (.ok () t) := by
  intro recurse
  rw [catcherBody_of_rewrites rewrites named, if_pos (by simpa using settled)]
  rfl

theorem catcherBody_loops
    (rewrites : RewritesSignal u thread threadId true p.current p.state after t)
    (named : hasSignalName after = true) (caught : after ∈ t.caughtSignals.keys)
    (visited : after ∈ p.visited) :
    Ends (catcherBody u thread threadId) p (.error (.raised (.runtimeError signalLoop)) t) := by
  intro recurse
  rw [catcherBody_of_rewrites rewrites named, if_neg (by simpa using caught), if_pos visited]
  rfl

/-- The place of a catcher's callback in the history. -/
def signalSite (threadId : Int) (number : Nat) : CallSite × Int := (.signal number, threadId)

/-- The turn of a signal that is not replaced by one with a name. -/
theorem catcherBody_cases (thread : Nat) (threadId : Int) (p : Place Nat (Debugger K)) :
    (∃ result, Ends (catcherBody u thread threadId) p result ∧
      TurnEnds (u := u) (RewritesSignal u thread threadId) signalLoop p result ∧
      LogsOnce (·.called) (signalSite threadId) p (finalState result)) ∨
    ∃ recursive after t, RewritesSignal u thread threadId recursive p.current p.state after t ∧
      hasSignalName after = true := by
  cases found : p.state.caughtSignals.get? p.current with
  | none =>
      refine .inl ⟨.ok () p.state, fun recurse => ?_, .returns _, .of_same rfl⟩
      simp only [catcherBody, EStateM.run_bind, EStateM.run_get, found]
      rfl
  | some catcher =>
  cases enabled : catcher.enabled with
  | false =>
      refine .inl ⟨.ok () p.state, fun recurse => ?_, .returns _, .of_same rfl⟩
      simp only [catcherBody, EStateM.run_bind, EStateM.run_get, found, enabled]
      rfl
  | true =>
  let counted := p.state.countCatch p.current
  have turn (recurse : Nat → List Nat → Py K Unit) :
      (catcherBody u thread threadId p.current p.visited recurse).run p.state =
        (resolveSignalName p.current >>= fun _ =>
          match catcher.callback with
          | none => modify (·.setResume false)
          | some callback => do
              runCallback u (.signal p.current) callback threadId
              afterCatcher thread catcher p.current p.visited recurse).run counted := by
    simp only [catcherBody, EStateM.run_bind, EStateM.run_get, found, enabled]
    rfl
  cases named : hasSignalName p.current with
  | false =>
      refine .inl ⟨.error (.raised (unnamedSignal p.current)) counted, fun recurse => ?_,
        .raises (.inr (unnamedSignal_ne _)), .of_same rfl⟩
      rw [turn, EStateM.run_bind, run_resolveSignalName_of_unnamed named]
  | true =>
  rcases user : catcher.callback with _ | callback
  · refine .inl ⟨.ok () (counted.setResume false), fun recurse => ?_, .returns _, .of_same rfl⟩
    simp only [turn, EStateM.run_bind, run_resolveSignalName named, user]
    rfl
  obtain ⟨t, called, returned | ⟨error, raised, by_user⟩⟩ :=
    runCallback_cases (u := u) (.signal p.current) callback threadId counted
  · by_cases kept : t.signalNumber thread = p.current
    · refine .inl ⟨.ok () t, fun recurse => ?_, .returns _, .of_turn called⟩
      simp only [turn, EStateM.run_bind, run_resolveSignalName named, user, returned,
        afterCatcher, EStateM.run_get, kept, if_true]
      rfl
    cases renamed : hasSignalName (t.signalNumber thread) with
    | false =>
        refine .inl ⟨.error (.raised (unnamedSignal (t.signalNumber thread))) t, fun recurse => ?_,
          .raises (.inr (unnamedSignal_ne _)), .of_turn called⟩
        simp only [turn, EStateM.run_bind, run_resolveSignalName named, user, returned,
          afterCatcher, EStateM.run_get, kept, if_false, run_resolveSignalName_of_unnamed renamed]
    | true =>
        exact .inr ⟨catcher.recursive, _, t,
          ⟨⟨catcher, callback, found, user, enabled, rfl, returned⟩, named, rfl, kept⟩, renamed⟩
  · refine .inl ⟨_, fun recurse => ?_, .raises (.inl by_user), .of_turn called⟩
    simp only [turn, EStateM.run_bind, run_resolveSignalName named, user, raised]

theorem catcherBody_chained : ChainBody (catcherBody u thread threadId) (fun _ => pure ())
    (·.caughtSignals.keys) (HijacksSignal u thread threadId) where
  turn p := by
    rcases catcherBody_cases (u := u) thread threadId p with
      ⟨result, ends, -⟩ | ⟨recursive, after, t, rewrites, named⟩
    · exact .inl ⟨result, ends⟩
    by_cases settled : recursive = false ∨ after ∉ t.caughtSignals.keys
    · exact .inl ⟨_, catcherBody_settles rewrites named settled⟩
    simp only [not_or, Bool.not_eq_false, not_not] at settled
    obtain ⟨rfl, caught⟩ := settled
    by_cases visited : after ∈ p.visited
    · exact .inl ⟨_, catcherBody_loops rewrites named caught visited⟩
    · exact .inr ⟨⟨after, p.visited, t⟩, ⟨rewrites, caught, named⟩, visited, rfl⟩
  goesOn {p q} follows recurse := by
    obtain ⟨rewrites, caught, named⟩ := follows.linked
    rw [catcherBody_of_rewrites rewrites named, if_neg (by simpa using caught),
      if_neg follows.fresh, follows.visited, EStateM.run_bind]
    cases (recurse q.current (q.current :: p.visited)).run q.state <;> rfl
  listed follows := follows.linked.2.1
  fixed follows := by
    obtain ⟨catcher, callback, -, -, -, -, returned⟩ := follows.linked.1.called
    exact (keys_of_runCallback returned).2.trans Dict.keys_modify
  leaves _ s := ⟨s, rfl⟩

theorem called_of_rewritesSignal {recursive : Bool}
    (rewrites : RewritesSignal u thread threadId recursive p.current p.state after t) :
    t.called = signalSite threadId p.current :: p.state.called := by
  obtain ⟨catcher, callback, -, -, -, -, returned⟩ := rewrites.called
  have called := called_of_runCallback returned
  exact called

theorem catcherBody_ends {result : EStateM.Result Abort (Debugger K) Unit}
    (ends : Ends (catcherBody u thread threadId) p result) :
    TurnEnds (u := u) (RewritesSignal u thread threadId) signalLoop p result ∧
      LogsOnce (·.called) (signalSite threadId) p (finalState result) := by
  rcases catcherBody_cases (u := u) thread threadId p with
    ⟨other, also, turn⟩ | ⟨recursive, after, t, rewrites, named⟩
  · exact ends.unique also ▸ turn
  have called := called_of_rewritesSignal rewrites
  by_cases settled : recursive = false ∨ after ∉ t.caughtSignals.keys
  · obtain rfl := ends.unique (catcherBody_settles rewrites named settled)
    exact ⟨.returns t, .of_turn called⟩
  simp only [not_or, Bool.not_eq_false, not_not] at settled
  obtain ⟨rfl, caught⟩ := settled
  by_cases visited : after ∈ p.visited
  · obtain rfl := ends.unique (catcherBody_loops rewrites named caught visited)
    exact ⟨.loops rewrites visited, .of_turn called⟩
  · have follows : Follows (HijacksSignal u thread threadId) p ⟨after, p.visited, t⟩ :=
      ⟨⟨rewrites, caught, named⟩, visited, rfl⟩
    exact absurd ends (catcherBody_chained.not_ends follows .hang)

/-- A chain that has moved on started at a signal with a catcher and a name. -/
theorem caught_of_visited {number : Nat} {recursive : Bool}
    (reached : Reaches (HijacksSignal u thread threadId) ⟨number, [], s⟩ p)
    (rewrites : RewritesSignal u thread threadId recursive p.current p.state after t)
    (visited : after ∈ p.visited) :
    after ∈ t.caughtSignals.keys ∧ hasSignalName after = true := by
  rcases reached.cases_head with rfl | ⟨q, ⟨⟨first, -, -⟩, -, -⟩, -⟩
  · exact absurd (List.mem_singleton.mp visited) rewrites.another
  obtain ⟨catcher, callback, found, -, -, -, -⟩ := first.called
  obtain ⟨_, _, -, -, -, -, returned⟩ := rewrites.called
  constructor
  · rw [(keys_of_runCallback returned).2.trans Dict.keys_modify]
    apply catcherBody_chained.listed_reaches reached _ after visited
    intro x member
    obtain rfl := List.mem_singleton.mp member
    exact Dict.mem_keys.mpr ⟨catcher, found⟩
  · apply reached.forall_visited (P := fun x => hasSignalName x = true) (fun linked => linked.2.2) _
      after visited
    intro x member
    obtain rfl := List.mem_singleton.mp member
    exact first.named

theorem handleSignal_detectsLoops (s : Debugger K) (thread : Nat) (threadId : Int) :
    DetectsLoops u (handleSignal u thread threadId) s signalLoop
      (s.ClosesSignalLoop u thread threadId) := by
  let start : Place Nat (Debugger K) := ⟨s.signalNumber thread, [], s⟩
  have enough : unvisited s.caughtSignals.keys start.visited < s.caughtSignals.keys.length + 1 :=
    Nat.lt_succ_of_le (unvisited_le _ _)
  have detects : DetectsLoops u (walk (catcherBody u thread threadId) .hang
      (s.caughtSignals.keys.length + 1) start.current start.visited) s signalLoop
      (s.ClosesSignalLoop u thread threadId) := by
    apply detectsLoops_walk catcherBody_chained (signalSite threadId) _
      (fun p result ends => (catcherBody_ends ends).1)
      (fun p result ends => (catcherBody_ends ends).2) _ _ start _ _ enough
    · intro one other same
      injection same with site
      injection site
    · intro p q follows
      exact called_of_rewritesSignal follows.linked.1
    · intro number s
      rfl
    · intro p after t reached rewrites visited
      obtain ⟨caught, named⟩ := caught_of_visited reached rewrites visited
      exact ⟨t, catcherBody_loops rewrites named caught visited⟩
    · intro p after t reached rewrites visited
      obtain ⟨-, named⟩ := caught_of_visited reached rewrites visited
      exact ⟨t, catcherBody_settles rewrites named (.inl rfl)⟩
  rw [← manageCaughtSignal_eq_walk] at detects
  exact detects.congr rfl fun recursive => Iff.rfl

end Signals

/-- Whatever the functions of the user do: each stop is processed to an end, each callback
on enter stops and each catcher's callback is called once at most, and the processing raises
that there is a loop exactly if a recursive handler, or catcher, leads back into the chain. -/
theorem hijack_loops_detected (u : UserCode K) (s : Debugger K) :
    (∀ threadId, DetectsLoops u (handleSyscall u threadId) s syscallLoop
      (s.ClosesSyscallLoop u threadId)) ∧
    ∀ thread threadId, DetectsLoops u (handleSignal u thread threadId) s signalLoop
      (s.ClosesSignalLoop u thread threadId) :=
  ⟨handleSyscall_detectsLoops s, handleSignal_detectsLoops s⟩

end Libdebug.Ptrace
