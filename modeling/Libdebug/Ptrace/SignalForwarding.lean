import Libdebug.Ptrace.SentSignals
import Libdebug.Ptrace.HijackLoops

/-!
From the statuses of a batch of signals to the `cont` that follows: each thread is resumed
with the signal that the chain of its catchers ends with, and every other one with none.

A turn of the loop of `manage_change` leaves the signals of the other threads alone, so what is
forwarded to a thread was decided in its own turn.
-/

namespace Libdebug.Ptrace

open Libdebug.Foundation Libdebug.Cffi

variable {K : Type}

/-! ### The batch, and what becomes of it -/

/-- The function of the user returns, and sets the signal of no thread but the one that it is
called on. -/
structure SetsOwn (u : UserCode K) (callback : Callback) : Prop where
  returns : ∀ threadId s, (u callback threadId s).2 = none
  own : ∀ threadId s, ∀ thread signal, .setSignal thread signal ∈ (u callback threadId s).1 →
    s.getThreadById threadId = some thread

/-- The callback of the catcher of a signal -/
def Debugger.catcherCallback (s : Debugger K) (number : Nat) : Option Callback :=
  (s.caughtSignals.get? number).bind (·.callback)

/-- The catchers call only functions that set their own thread's signal. -/
def Debugger.CatchersSetOwn (u : UserCode K) (s : Debugger K) : Prop :=
  ∀ number, ∀ callback ∈ s.catcherCallback number, SetsOwn u callback

/-- Each status is a stop of another live thread, for a signal that the debugger does not use
itself. -/
structure SignalBatch (s : Debugger K) (results : List ThreadStatus) : Prop where
  distinct : (results.map (·.tid)).Nodup
  genuine : ∀ st ∈ results, st.tid ≠ -1
  stopped : ∀ st ∈ results, wifstopped st.status = true ∧
    wstopsig st.status ∉ [SIGSTOP, SIGTRAP, syscallSigtrap]
  live : ∀ st ∈ results, ∃ thread, s.Live thread st.tid

/-- Nothing is left to forward from before, and a batch has come in. -/
structure Forwardable (u : UserCode K) (s : Debugger K) (results : List ThreadStatus) : Prop where
  traced : Traced s
  nobody : s.resumeContext.threadsWithSignalsToForward = []
  flushed : Flushed s.globalState.tHead
  batch : SignalBatch s results
  own : s.CatchersSetOwn u

/-- The chain of catchers has no place after this one, and ends with the signal. -/
inductive ChainEnd (u : UserCode K) (thread : Nat) (threadId : Int) (p : Place Nat (Debugger K)) :
    Nat → Prop
  | uncaught (absent : p.state.caughtSignals.get? p.current = none) :
      ChainEnd u thread threadId p p.current
  | disabled {catcher : SignalCatcher}
      (found : p.state.caughtSignals.get? p.current = some catcher)
      (off : catcher.enabled = false) : ChainEnd u thread threadId p p.current
  | stops {catcher : SignalCatcher}
      (found : p.state.caughtSignals.get? p.current = some catcher)
      (on : catcher.enabled = true) (noCallback : catcher.callback = none) :
      ChainEnd u thread threadId p p.current
  | kept {catcher : SignalCatcher} {callback : Callback} {t : Debugger K}
      (found : p.state.caughtSignals.get? p.current = some catcher)
      (on : catcher.enabled = true) (user : catcher.callback = some callback)
      (returned : (runCallback u (.signal p.current) callback threadId).run
        (p.state.countCatch p.current) = .ok () t)
      (same : t.signalNumber thread = p.current) : ChainEnd u thread threadId p p.current
  | settled {recursive : Bool} {after : Nat} {t : Debugger K}
      (rewrites : RewritesSignal u thread threadId recursive p.current p.state after t)
      (last : recursive = false ∨ after ∉ t.caughtSignals.keys) : ChainEnd u thread threadId p after

/-- The hijack chain that begins with the signal of the thread ends with this one. -/
def FinalSignal (u : UserCode K) (s : Debugger K) (thread : Nat) (threadId : Int)
    (signal : Nat) : Prop :=
  ∃ p, Reaches (HijacksSignal u thread threadId) ⟨s.signalNumber thread, [], s⟩ p ∧
    ChainEnd u thread threadId p signal

/-- The state in which the catchers have their turn with a status -/
def Debugger.receiving (s : Debugger K) (st : ThreadStatus) (thread : Nat) : Debugger K :=
  (s.setForwardSignal true).receive st thread (wstopsig st.status)

/-- A signal to forward, unless it is in `signals_to_block` -/
def Debugger.unblocked (s : Debugger K) (signal : Nat) : Nat :=
  if signal ∈ s.signalsToBlock then 0 else signal

variable (k : Kernel K) (u : UserCode K)

/-- With `manage_change` done, `cont` resumes the thread of each status with the signal that its
chain has ended with, if it is not blocked, and each other thread with none. Nothing is left to
forward. -/
def ForwardsExactly (s : Debugger K) (results : List ThreadStatus) : Prop :=
  let managed := stateAfter (manageChange k u results) s
  ∃ next, managed.command k u .cont = some next ∧
    (∀ earlier st later, results = earlier ++ st :: later →
      ∀ thread signal, s.getThreadById st.tid = some thread →
        FinalSignal u ((stateAfter (manageChange k u earlier) s).receiving st thread) thread st.tid
          signal →
        contSignals st.tid next.world.log =
          s.unblocked signal :: contSignals st.tid managed.world.log) ∧
    (∀ node ∈ s.globalState.tHead, node.tid ∉ results.map (·.tid) →
      contSignals node.tid next.world.log = 0 :: contSignals node.tid managed.world.log) ∧
    next.resumeContext.threadsWithSignalsToForward = [] ∧ Flushed next.globalState.tHead

variable {k u}

/-! ### The chain of one thread -/

section Chain

variable {thread : Nat} {threadId : Int} {p q : Place Nat (Debugger K)} {s t : Debugger K}

/-- A place with another one after it is no end, and at an end there is one signal. -/
theorem RewritesSignal.unique {recursive other : Bool} {number after after' : Nat}
    {t' : Debugger K} (rewrites : RewritesSignal u thread threadId recursive number s after t)
    (also : RewritesSignal u thread threadId other number s after' t') :
    recursive = other ∧ after = after' ∧ t = t' := by
  obtain ⟨catcher, callback, found, user, -, rfl, returned⟩ := rewrites.called
  obtain ⟨catcher', callback', found', user', -, rfl, returned'⟩ := also.called
  obtain rfl : catcher = catcher' := Option.some.inj (found.symm.trans found')
  obtain rfl : callback = callback' := Option.some.inj (user.symm.trans user')
  rw [returned] at returned'
  cases returned'
  exact ⟨rfl, rewrites.shown.symm.trans also.shown, rfl⟩

theorem ChainEnd.not_rewrites {signal : Nat} (ended : ChainEnd u thread threadId p signal) :
    (∀ recursive after t,
      ¬ RewritesSignal u thread threadId recursive p.current p.state after t) ∧
        signal = p.current ∨
    ∃ recursive t, RewritesSignal u thread threadId recursive p.current p.state signal t ∧
      (recursive = false ∨ signal ∉ t.caughtSignals.keys) := by
  cases ended with
  | uncaught absent =>
      refine .inl ⟨fun recursive after t rewrites => ?_, rfl⟩
      obtain ⟨catcher, callback, found, -⟩ := rewrites.called
      rw [absent] at found
      cases found
  | disabled found off =>
      refine .inl ⟨fun recursive after t rewrites => ?_, rfl⟩
      obtain ⟨catcher, callback, found', -, on, -⟩ := rewrites.called
      rw [found] at found'
      cases found'
      rw [off] at on
      cases on
  | stops found on noCallback =>
      refine .inl ⟨fun recursive after t rewrites => ?_, rfl⟩
      obtain ⟨catcher, callback, found', user, -⟩ := rewrites.called
      rw [found] at found'
      cases found'
      rw [noCallback] at user
      cases user
  | kept found on user returned same =>
      refine .inl ⟨fun recursive after t rewrites => ?_, rfl⟩
      obtain ⟨catcher, callback, found', user', -, -, returned'⟩ := rewrites.called
      rw [found] at found'
      cases found'
      rw [user] at user'
      cases user'
      rw [returned] at returned'
      cases returned'
      exact rewrites.another (rewrites.shown.symm.trans same)
  | settled rewrites last => exact .inr ⟨_, _, rewrites, last⟩

theorem ChainEnd.unique {signal other : Nat} (ended : ChainEnd u thread threadId p signal)
    (also : ChainEnd u thread threadId p other) : signal = other := by
  rcases ended.not_rewrites with ⟨none, rfl⟩ | ⟨recursive, t, rewrites, -⟩
  · rcases also.not_rewrites with ⟨-, rfl⟩ | ⟨recursive, t, rewrites, -⟩
    · rfl
    · exact absurd rewrites (none _ _ _)
  · rcases also.not_rewrites with ⟨none, -⟩ | ⟨recursive', t', rewrites', -⟩
    · exact absurd rewrites (none _ _ _)
    · exact (rewrites.unique rewrites').2.1

theorem ChainEnd.not_follows {signal : Nat} (ended : ChainEnd u thread threadId p signal) :
    ¬ Follows (HijacksSignal u thread threadId) p q := by
  intro follows
  obtain ⟨rewrites, caught, -⟩ := follows.linked
  rcases ended.not_rewrites with ⟨none, -⟩ | ⟨recursive, t, rewrites', last⟩
  · exact none _ _ _ rewrites
  · obtain ⟨rfl, rfl, rfl⟩ := rewrites.unique rewrites'
    exact last.elim (by decide) fun absent => absent caught

theorem hijacksSignal_unique {q' : Place Nat (Debugger K)}
    (follows : Follows (HijacksSignal u thread threadId) p q)
    (also : Follows (HijacksSignal u thread threadId) p q') : q = q' := by
  obtain ⟨-, after, state⟩ := follows.linked.1.unique also.linked.1
  have before := follows.before.trans also.before.symm
  cases q
  cases q'
  simp_all

/-- A chain ends with one signal at most. -/
theorem FinalSignal.unique {signal other : Nat} (final : FinalSignal u s thread threadId signal)
    (also : FinalSignal u s thread threadId other) : signal = other := by
  obtain ⟨p, reached, ended⟩ := final
  obtain ⟨q, reached', ended'⟩ := also
  have unique : Relator.RightUnique (Follows (HijacksSignal u thread threadId)) :=
    fun _ _ _ => hijacksSignal_unique
  rcases Relation.ReflTransGen.total_of_right_unique unique reached reached' with onward | back
  · rcases onward.cases_head with rfl | ⟨_, follows, -⟩
    · exact ended.unique ended'
    · exact absurd follows ended.not_follows
  · rcases back.cases_head with rfl | ⟨_, follows, -⟩
    · exact ended.unique ended'
    · exact absurd follows ended'.not_follows

/-- Where a turn ends by returning, the chain does, with the signal that the thread then has. -/
theorem catcherBody_chainEnd (shown : p.state.signalNumber thread = p.current)
    (ends : Ends (catcherBody u thread threadId) p (.ok () t)) :
    ChainEnd u thread threadId p (t.signalNumber thread) := by
  have returned := ends fun _ _ => throw .hang
  obtain ⟨_, _, read, returned⟩ := ok_of_bind returned
  cases read
  split at returned
  · rename_i absent
    cases returned
    exact shown ▸ .uncaught absent
  rename_i catcher found
  split at returned
  · rename_i off
    cases returned
    exact shown ▸ .disabled found (by simpa using off)
  rename_i on
  obtain ⟨_, counted, noted, returned⟩ := ok_of_bind returned
  cases noted
  obtain ⟨_, resolved, named, returned⟩ := ok_of_bind returned
  cases known : hasSignalName p.current with
  | false =>
      rw [run_resolveSignalName_of_unnamed known] at named
      cases named
  | true =>
  rw [run_resolveSignalName known] at named
  cases named
  split at returned
  · rename_i noCallback
    cases returned
    change ChainEnd u thread threadId p (p.state.signalNumber thread)
    rw [shown]
    exact .stops found (by simpa using on) noCallback
  rename_i callback user
  obtain ⟨_, called, answered, returned⟩ := ok_of_bind returned
  obtain ⟨_, _, read, returned⟩ := ok_of_bind returned
  cases read
  dsimp only at returned
  split at returned
  · rename_i same
    cases returned
    exact same.symm ▸ .kept found (by simpa using on) user answered same
  rename_i another
  obtain ⟨_, _, first, returned⟩ := ok_of_bind returned
  rw [run_resolveSignalName known] at first
  cases first
  obtain ⟨_, _, second, returned⟩ := ok_of_bind returned
  cases renamed : hasSignalName (called.signalNumber thread) with
  | false =>
      rw [run_resolveSignalName_of_unnamed renamed] at second
      cases second
  | true =>
    rw [run_resolveSignalName renamed] at second
    cases second
    have rewrites : RewritesSignal u thread threadId catcher.recursive p.current p.state
        (called.signalNumber thread) called :=
      ⟨⟨catcher, callback, found, user, by simpa using on, rfl, answered⟩, known, rfl, another⟩
    split at returned
    · rename_i settled
      cases returned
      exact .settled rewrites (by simpa using settled)
    · split at returned <;> cases returned

/-- A chain that ends by returning leaves its last signal in the thread context. -/
theorem handleSignal_final (returned : (handleSignal u thread threadId).run s = .ok () t) :
    FinalSignal u s thread threadId (t.signalNumber thread) := by
  have enough : unvisited s.caughtSignals.keys [s.signalNumber thread] <
      s.caughtSignals.keys.length + 1 := Nat.lt_succ_of_le (unvisited_le _ _)
  have chained : ChainBody (catcherBody u thread threadId) (fun _ => pure ())
      (·.caughtSignals.keys) (HijacksSignal u thread threadId) := catcherBody_chained
  have walked : ∀ t, (walk (catcherBody u thread threadId) .hang
      (s.caughtSignals.keys.length + 1) (s.signalNumber thread) [s.signalNumber thread]).run s =
        .ok () t → FinalSignal u s thread threadId (t.signalNumber thread) := by
    apply chained.walk_induct .hang (motive := fun p result =>
      p.state.signalNumber thread = p.current → ∀ t, result = .ok () t →
        ∃ q, Reaches (HijacksSignal u thread threadId) p q ∧
          ChainEnd u thread threadId q (t.signalNumber thread)) _ _
      ⟨s.signalNumber thread, [], s⟩ enough rfl
    · intro p result ends shown t ok
      exact ⟨p, .refl, catcherBody_chainEnd shown (ok ▸ ends)⟩
    · intro p q result follows ih shown t ok
      cases result with
      | error e r => cases ok
      | ok _ r =>
          cases ok
          obtain ⟨last, reached, ended⟩ := ih follows.linked.1.shown _ rfl
          exact ⟨last, .head follows reached, ended⟩
  obtain ⟨_, _, read, returned⟩ := ok_of_bind returned
  cases read
  rw [manageCaughtSignal_eq_walk] at returned
  exact walked t returned

end Chain

/-! ### What a turn leaves alone -/

/-- From `s` to `t` nothing has happened to the signals but that of this thread, and no id but
that of the thread has been put on the list. -/
structure Beside (thread : Nat) (threadId : Int) (s t : Debugger K) : Prop where
  identities : t.identities = s.identities
  blocks : t.signalsToBlock = s.signalsToBlock
  startup : t.resumeContext.isStartup = s.resumeContext.isStartup
  callbacks : ∀ number, t.catcherCallback number = s.catcherCallback number
  numbers : ∀ other, other ≠ thread → t.signalNumber other = s.signalNumber other
  listed : ∀ id ≠ threadId, id ∈ t.resumeContext.threadsWithSignalsToForward ↔
    id ∈ s.resumeContext.threadsWithSignalsToForward
  kept : ∀ id ∈ s.resumeContext.threadsWithSignalsToForward,
    id ∈ t.resumeContext.threadsWithSignalsToForward

section Turns

variable {thread : Nat} {threadId : Int} {r s t : Debugger K}

theorem Beside.refl (s : Debugger K) : Beside thread threadId s s :=
  ⟨rfl, rfl, rfl, fun _ => rfl, fun _ _ => rfl, fun _ _ => Iff.rfl, fun _ => id⟩

theorem Beside.trans (first : Beside thread threadId r s) (second : Beside thread threadId s t) :
    Beside thread threadId r t where
  identities := second.identities.trans first.identities
  blocks := second.blocks.trans first.blocks
  startup := second.startup.trans first.startup
  callbacks number := (second.callbacks number).trans (first.callbacks number)
  numbers other different := (second.numbers other different).trans (first.numbers other different)
  listed id different := (second.listed id different).trans (first.listed id different)
  kept id member := second.kept id (first.kept id member)

theorem Beside.found (beside : Beside thread threadId s t) (id : Int) :
    t.getThreadById id = s.getThreadById id :=
  Debugger.getThreadById_of_identities beside.identities id

theorem Beside.setOwn (beside : Beside thread threadId s t) (own : s.CatchersSetOwn u) :
    t.CatchersSetOwn u := by
  intro number callback caught
  rw [beside.callbacks] at caught
  exact own number callback caught

/-- To switch a catcher on or off, or to count a hit of it, keeps its callback. -/
theorem catcherCallback_updateCatcher (s : Debugger K) (number : Nat)
    {f : SignalCatcher → SignalCatcher} (same : ∀ c, (f c).callback = c.callback) (other : Nat) :
    (s.updateCatcher number f).catcherCallback other = s.catcherCallback other := by
  simp only [Debugger.catcherCallback, Debugger.updateCatcher, Dict.get?_modify]
  split
  · rename_i here
    rw [here]
    cases s.caughtSignals.get? number with
    | none => rfl
    | some catcher => exact same catcher
  · rfl

theorem updateCatcher_beside (s : Debugger K) (number : Nat) {f : SignalCatcher → SignalCatcher}
    (same : ∀ c, (f c).callback = c.callback) :
    Beside thread threadId s (s.updateCatcher number f) :=
  ⟨rfl, rfl, rfl, catcherCallback_updateCatcher s number same, fun _ _ => rfl,
    fun _ _ => Iff.rfl, fun _ => id⟩

theorem setSignal_beside (found : s.getThreadById threadId = some thread) (signal : Nat) :
    Beside thread threadId s (s.setSignal thread signal) := by
  obtain ⟨⟨context, here, sameId, -⟩, -⟩ := Debugger.getThreadById_eq_some.mp found
  obtain ⟨context', found', assigned⟩ : ∃ t ∈ s.threads[thread]?, s.setSignal thread signal = _ :=
    setSignal_eq (by simp [here])
  obtain rfl : context = context' := by
    rw [here] at found'
    exact Option.some.inj found'
  rw [assigned, sameId]
  constructor
  · exact s.identities_withNumber thread signal
  · rfl
  · rfl
  · exact fun _ => rfl
  · exact fun other different => Debugger.signalNumber_withNumber_other different signal
  · intro id different
    simp [different]
  · exact fun id member => List.mem_append_left _ member

theorem perform_beside (found : s.getThreadById threadId = some thread) {action : Action}
    (own : ∀ other signal, action = .setSignal other signal → other = thread) :
    Beside thread threadId s (s.perform action) := by
  cases action with
  | setSignal other signal =>
      obtain rfl := own other signal rfl
      exact setSignal_beside found signal
  | enableCatcher number | disableCatcher number =>
      exact updateCatcher_beside s number fun _ => rfl
  | _ => exact ⟨rfl, rfl, rfl, fun _ => rfl, fun _ _ => rfl, fun _ _ => Iff.rfl, fun _ => id⟩

theorem performAll_beside (found : s.getThreadById threadId = some thread) {actions : List Action}
    (own : ∀ other signal, .setSignal other signal ∈ actions → other = thread) :
    Beside thread threadId s (s.performAll actions) := by
  induction actions generalizing s with
  | nil => exact .refl s
  | cons action rest ih =>
      have here : Beside thread threadId s (s.perform action) :=
        perform_beside found fun other signal same => own other signal (same ▸ List.mem_cons_self)
      have later := ih ((here.found threadId).trans found) fun other signal member =>
        own other signal (List.mem_cons_of_mem _ member)
      exact here.trans later

theorem runCallback_beside {callback : Callback} (setsOwn : SetsOwn u callback)
    (found : s.getThreadById threadId = some thread) {site : CallSite}
    (returned : (runCallback u site callback threadId).run s = .ok () t) :
    Beside thread threadId s t := by
  rw [← stateAfter_of_ok returned, stateAfter_runCallback]
  have noted : Beside thread threadId s (s.noteCall (site, threadId)) :=
    ⟨rfl, rfl, rfl, fun _ => rfl, fun _ _ => rfl, fun _ _ => Iff.rfl, fun _ => id⟩
  have here := (noted.found threadId).trans found
  refine noted.trans (performAll_beside here fun other signal member => ?_)
  have own := setsOwn.own threadId _ other signal member
  exact Option.some.inj (own.symm.trans here)

/-- The chain of a thread leaves the signals of the others alone. -/
theorem manageCaughtSignal_beside (own : s.CatchersSetOwn u)
    (found : s.getThreadById threadId = some thread) (fuel number : Nat) (hijackedSet : List Nat) :
    Triple (Beside thread threadId s)
      (manageCaughtSignal u thread threadId fuel number hijackedSet)
      (fun _ => Beside thread threadId s) fun _ _ => True := by
  have resolves (signal : Nat) : Triple (Beside thread threadId s) (resolveSignalName signal)
      (fun _ => Beside thread threadId s) fun _ _ => True :=
    Triple.ite (fun _ => Triple.pure fun _ => id) fun _ => Triple.throw fun _ _ => trivial
  induction fuel generalizing number hijackedSet with
  | zero => exact Triple.throw fun _ _ => trivial
  | succ fuel ih =>
      refine Triple.get_bind fun r => ?_
      split
      · exact Triple.pure fun _ before => before.1
      rename_i catcher caught
      refine Triple.ite (fun _ => Triple.pure fun _ before => before.1) fun _ => ?_
      refine Triple.bind (R := fun _ => Beside thread threadId s) (Q := fun _ t =>
        Beside thread threadId s t ∧ t.catcherCallback number = catcher.callback) ?_ fun _ => ?_
      · refine Triple.modify fun t before => ?_
        obtain ⟨beside, rfl⟩ := before
        have counts : Beside thread threadId t (t.countCatch number) :=
          updateCatcher_beside t number fun _ => rfl
        refine ⟨beside.trans counts, (counts.callbacks number).trans ?_⟩
        simp only [Debugger.catcherCallback, caught, Option.bind_some]
      refine Triple.bind (Q := fun _ t =>
        Beside thread threadId s t ∧ t.catcherCallback number = catcher.callback) ?_ fun _ => ?_
      · exact Triple.ite (fun _ => Triple.pure fun _ => id) fun _ => Triple.throw fun _ _ => trivial
      split
      · refine Triple.modify fun t before => before.1.trans ?_
        exact ⟨rfl, rfl, rfl, fun _ => rfl, fun _ _ => rfl, fun _ _ => Iff.rfl, fun _ => id⟩
      rename_i callback user
      refine Triple.bind (Q := fun _ => Beside thread threadId s) ?_ fun _ => ?_
      · intro t before
        obtain ⟨beside, here⟩ := before
        split
        · rename_i returned
          have setsOwn : SetsOwn u callback :=
            beside.setOwn own number callback (here.trans user)
          have here := (beside.found threadId).trans found
          exact beside.trans (runCallback_beside setsOwn here returned)
        · trivial
      refine Triple.get_bind fun r => ?_
      refine Triple.ite (fun _ => Triple.pure fun _ before => before.1) fun _ => ?_
      refine Triple.mono ?_ (fun _ before => before.1) (fun _ _ => id)
      refine (resolves _).bind fun _ => (resolves _).bind fun _ => ?_
      refine Triple.ite (fun _ => Triple.pure fun _ => id) fun _ => ?_
      exact Triple.ite (fun _ => Triple.throw fun _ _ => trivial) fun _ => ih _ _

theorem handleSignal_beside (own : s.CatchersSetOwn u)
    (found : s.getThreadById threadId = some thread)
    (returned : (handleSignal u thread threadId).run s = .ok () t) :
    Beside thread threadId s t := by
  obtain ⟨_, _, read, returned⟩ := ok_of_bind returned
  cases read
  exact (manageCaughtSignal_beside own found _ _ _).of_ok (.refl s) returned

end Turns

/-! ### The batch -/

section Batch

variable {k : Kernel K} {s t : Debugger K} {st : ThreadStatus} {thread : Nat}
  {results : List ThreadStatus}

/-- What `_handle_change` comes to for a signal that the debugger does not use itself. -/
def signalTurn (u : UserCode K) (st : ThreadStatus) : Py K Unit := do
  modify (·.setForwardSignal true)
  handleStop u st (wstopsig st.status)

theorem handleChange_run (running : s.resumeContext.isStartup = false)
    (stopped : wifstopped st.status = true ∧
      wstopsig st.status ∉ [SIGSTOP, SIGTRAP, syscallSigtrap]) :
    (handleChange k u st results).run s = (signalTurn u st).run s := by
  obtain ⟨stops, foreign⟩ := stopped
  simp only [List.mem_cons, List.not_mem_nil, or_false, not_or] at foreign
  obtain ⟨notStop, notTrap, notSyscall⟩ := foreign
  have started : (s.setForwardSignal true).resumeContext.isStartup = false := running
  simp only [handleChange, signalTurn, EStateM.run_bind, EStateM.run_modify, EStateM.run_get, stops,
    started, internalSignalHandler, notStop, notTrap, notSyscall, if_true, Bool.false_eq_true,
    if_false, false_and]
  rfl

theorem perform_startup (s : Debugger K) (action : Action) :
    (s.perform action).resumeContext.isStartup = s.resumeContext.isStartup := by
  cases action with
  | setSignal thread signal =>
      simp only [Debugger.perform, Debugger.setSignal]
      split <;> rfl
  | _ => rfl

theorem signalTurn_startup (st : ThreadStatus) :
    Leaves (·.resumeContext.isStartup) (signalTurn u st : Py K Unit) := by
  have calls (site : CallSite) (callback : Callback) (threadId : Int) :
      Leaves (·.resumeContext.isStartup) (runCallback u site callback threadId) := by
    intro s
    rw [Same, stateAfter_runCallback]
    have all (r : Debugger K) (actions : List Action) :
        (r.performAll actions).resumeContext.isStartup = r.resumeContext.isStartup := by
      induction actions generalizing r with
      | nil => rfl
      | cons action rest ih => exact (ih (r.perform action)).trans (perform_startup r action)
    exact all _ _
  refine Keeps.bind (Keeps.modify fun s => rfl) fun _ => ?_
  refine Keeps.bind (Keeps.get.bind fun s => Keeps.pure _) fun thread => ?_
  split
  · exact Keeps.pure _
  have updates (number : Nat) (f : SignalCatcher → SignalCatcher) :
      Leaves (·.resumeContext.isStartup) (modify (·.updateCatcher number f) : Py K Unit) :=
    fun s => rfl
  have stops : Leaves (·.resumeContext.isStartup) (modify (·.setResume false) : Py K Unit) :=
    fun s => rfl
  refine Keeps.bind (Keeps.modify fun s => rfl) fun _ => ?_
  refine (handleSignal_keeps updates stops calls _ _).bind fun _ => Keeps.modify fun s => ?_
  split <;> rfl

theorem manageChange_run (running : s.resumeContext.isStartup = false)
    (genuine : ∀ st ∈ results, st.tid ≠ -1)
    (stopped : ∀ st ∈ results, wifstopped st.status = true ∧
      wstopsig st.status ∉ [SIGSTOP, SIGTRAP, syscallSigtrap]) :
    (manageChange k u results).run s = (results.forM (signalTurn u)).run s := by
  have all : results.filter (·.tid ≠ -1) = results :=
    List.filter_eq_self.mpr fun st member => decide_eq_true (genuine st member)
  have turns (rest batch : List ThreadStatus) (sub : ∀ st ∈ rest, st ∈ results) (r : Debugger K)
      (started : r.resumeContext.isStartup = false) :
      (rest.forM fun st => handleChange k u st batch).run r =
        (rest.forM (signalTurn u)).run r := by
    induction rest generalizing r with
    | nil => rfl
    | cons st rest ih =>
        obtain ⟨here, later⟩ := List.forall_mem_cons.mp sub
        have first : (handleChange k u st batch).run r = (signalTurn u st).run r :=
          handleChange_run started (stopped st here)
        change (handleChange k u st batch >>= fun _ =>
          rest.forM fun st => handleChange k u st batch).run r =
            (signalTurn u st >>= fun _ => rest.forM (signalTurn u)).run r
        rw [EStateM.run_bind, EStateM.run_bind, first]
        rcases ended : (signalTurn u st).run r with ⟨_, next⟩ | ⟨e, next⟩
        · have same : next.resumeContext.isStartup = r.resumeContext.isStartup :=
            (signalTurn_startup st).of_ok ended
          exact ih later next (same.trans started)
        · rfl
  rw [manageChange, all]
  exact turns results results (fun _ => id) s running

theorem signalTurn_spec (own : s.CatchersSetOwn u) (found : s.getThreadById st.tid = some thread)
    (ordinary : wstopsig st.status ≠ SIGSTOP) (returned : (signalTurn u st).run s = .ok () t) :
    Beside thread st.tid s t ∧ st.tid ∈ t.resumeContext.threadsWithSignalsToForward ∧
      FinalSignal u (s.receiving st thread) thread st.tid (t.signalNumber thread) := by
  obtain ⟨_, _, set, returned⟩ := ok_of_bind returned
  cases set
  have here : (s.setForwardSignal true).getThreadById st.tid = some thread := found
  obtain ⟨_, _, read, returned⟩ := ok_of_bind returned
  rw [run_getThreadById, here] at read
  cases read
  obtain ⟨_, _, received, returned⟩ := ok_of_bind returned
  cases received
  change (handleSignal u thread st.tid >>= fun _ => appendSignalToForward st.tid _).run
    (s.receiving st thread) = _ at returned
  obtain ⟨_, handled, chained, returned⟩ := ok_of_bind returned
  have received : Beside thread st.tid s (s.receiving st thread) := by
    constructor
    · exact s.identities_withNumber thread _
    · rfl
    · rfl
    · exact fun _ => rfl
    · exact fun other different => Debugger.signalNumber_withNumber_other different _
    · exact fun _ _ => Iff.rfl
    · exact fun _ => id
  have after : Beside thread st.tid (s.receiving st thread) handled :=
    handleSignal_beside (received.setOwn own) ((received.found _).trans found) chained
  have flag : handled.forwardSignal = true :=
    (handleSignal_keeps updateCatcher_touches (setResume_touches _) runCallback_touches _ _).of_ok
      chained .forwardSignal (by decide)
  have appended : handled.forwardSignal ∧ wstopsig st.status ≠ SIGSTOP := ⟨flag, ordinary⟩
  have final := handleSignal_final chained
  have ended : t = { handled with resumeContext :=
      { handled.resumeContext with threadsWithSignalsToForward :=
          handled.resumeContext.threadsWithSignalsToForward ++ [st.tid] } } := by
    have state := (stateAfter_of_ok returned).symm
    rw [appendSignalToForward, stateAfter_modify, if_pos appended] at state
    exact state
  subst ended
  refine ⟨(received.trans after).trans ?_, by simp, final⟩
  constructor
  · rfl
  · rfl
  · rfl
  · exact fun _ => rfl
  · exact fun _ _ => rfl
  · intro id different
    simp [different]
  · exact fun id member => List.mem_append_left _ member

/-- The turns of the batch have decided for each of its threads, and for no other one. -/
structure Decided (u : UserCode K) (s t : Debugger K) (batch : List ThreadStatus) : Prop where
  identities : t.identities = s.identities
  blocks : t.signalsToBlock = s.signalsToBlock
  listed : ∀ id, id ∈ t.resumeContext.threadsWithSignalsToForward ↔
    id ∈ s.resumeContext.threadsWithSignalsToForward ∨ id ∈ batch.map (·.tid)
  numbers : ∀ id ∉ batch.map (·.tid), ∀ thread, s.getThreadById id = some thread →
    t.signalNumber thread = s.signalNumber thread
  final : ∀ earlier st later, batch = earlier ++ st :: later →
    ∀ thread, s.getThreadById st.tid = some thread →
      FinalSignal u ((stateAfter (earlier.forM (signalTurn u)) s).receiving st thread) thread st.tid
        (t.signalNumber thread)

theorem turns_decide {batch : List ThreadStatus} (own : s.CatchersSetOwn u)
    (distinct : (batch.map (·.tid)).Nodup)
    (known : ∀ st ∈ batch, ∃ thread, s.getThreadById st.tid = some thread)
    (ordinary : ∀ st ∈ batch, wstopsig st.status ≠ SIGSTOP)
    (returned : (batch.forM (signalTurn u)).run s = .ok ⟨⟩ t) : Decided u s t batch := by
  induction batch generalizing s with
  | nil =>
      cases returned
      exact ⟨rfl, rfl, by simp, fun _ _ _ _ => rfl, by simp⟩
  | cons st rest ih =>
      obtain ⟨others, distinct⟩ := List.nodup_cons.mp distinct
      obtain ⟨⟨thread, found⟩, knownLater⟩ := List.forall_mem_cons.mp known
      obtain ⟨signal, signals⟩ := List.forall_mem_cons.mp ordinary
      obtain ⟨_, r, first, later⟩ := ok_of_bind returned
      obtain ⟨beside, listed, final⟩ := signalTurn_spec own found signal first
      have decided : Decided u r t rest := by
        apply ih (beside.setOwn own) distinct _ signals later
        intro other member
        rw [beside.found]
        exact knownLater other member
      constructor
      · exact decided.identities.trans beside.identities
      · exact decided.blocks.trans beside.blocks
      · intro id
        rw [decided.listed, List.map_cons, List.mem_cons]
        by_cases same : id = st.tid
        · subst same
          simp [listed]
        · simp [beside.listed id same, same]
      · intro id outside other foundOther
        rw [List.map_cons, List.mem_cons, not_or] at outside
        obtain ⟨different, absent⟩ := outside
        rw [decided.numbers id absent other ((beside.found id).trans foundOther)]
        exact beside.numbers other (Debugger.getThreadById_ne found foundOther different)
      · intro earlier other rest' parts thread' found'
        rcases earlier with _ | ⟨head, earlier⟩
        · obtain ⟨rfl, rfl⟩ := List.cons.inj parts
          obtain rfl : thread = thread' := Option.some.inj (found.symm.trans found')
          rw [decided.numbers _ others thread ((beside.found _).trans found)]
          exact final
        · obtain ⟨rfl, partsLater⟩ := List.cons.inj parts
          have state : stateAfter ((st :: earlier).forM (signalTurn u)) s =
              stateAfter (earlier.forM (signalTurn u)) r := stateAfter_bind_ok first
          rw [state]
          exact decided.final earlier other rest' partsLater thread' ((beside.found _).trans found')

end Batch

/-! ### The threads that get no signal -/

section Spared

variable {k : Kernel K} {s t : Debugger K} {thread : Nat} {tid : Int} {node : Thread}

/-- There is nothing to forward to the thread: it is not on the list, or has no signal but one
that is blocked. -/
def Debugger.Spares (s : Debugger K) (tid : Int) : Prop :=
  tid ∉ s.resumeContext.threadsWithSignalsToForward ∨
    ∃ thread, s.getThreadById tid = some thread ∧
      (s.signalNumber thread = 0 ∨ s.signalNumber thread ∈ s.signalsToBlock)

/-- Throughout the loop: there is nothing to forward to the thread, and its node has no signal. -/
structure Sparing (s : Debugger K) (tid : Int) (t : Debugger K) : Prop where
  ids : nodeIds t.globalState = nodeIds s.globalState
  identities : t.identities = s.identities
  spared : t.Spares tid
  unsignalled : ∀ node ∈ t.globalState.tHead, node.tid = tid → node.signalToForward = 0

theorem sparing_step {r : Debugger K} (traced : Traced s)
    (member : (node.tid, node.regs) ∈ nodeIds s.globalState) (sparing : Sparing s tid r)
    (returned : (forwardSignalTo node).run r = .ok () t) : Sparing s tid t := by
  rcases forwardSignalTo_cases returned with ⟨rfl, -⟩ | ⟨other, found, rfl, listed, set, allowed⟩
  · exact sparing
  have elsewhere : node.tid ≠ tid := by
    rintro rfl
    rcases sparing.spared with unlisted | ⟨thread, found', spared⟩
    · exact unlisted listed
    · rw [found] at found'
      cases found'
      exact spared.elim set allowed
  constructor
  · exact (nodeIds_forward ..).trans sparing.ids
  · exact (r.identities_withNumber other 0).trans sparing.identities
  · refine sparing.spared.imp id fun ⟨thread, found', spared⟩ => ⟨thread, ?_, ?_⟩
    · have same := r.identities_withNumber other 0
      exact (Debugger.getThreadById_of_identities same tid).trans found'
    · have different := Debugger.getThreadById_ne found found' (Ne.symm elsewhere)
      have same : (r.withNumber other 0).signalNumber thread = r.signalNumber thread :=
        Debugger.signalNumber_withNumber_other different 0
      exact same.symm ▸ spared
  · intro after there sameId
    obtain ⟨old, before, rfl⟩ := List.mem_map.mp there
    split at sameId
    · -- the two nodes would have one register file
      rename_i sameFile
      have oldId : (old.tid, old.regs) ∈ nodeIds s.globalState :=
        sparing.ids ▸ List.mem_map_of_mem before
      obtain ⟨first, firstMember, firstSame⟩ := List.mem_map.mp oldId
      obtain ⟨second, secondMember, secondSame⟩ := List.mem_map.mp member
      simp only [Prod.mk.injEq] at firstSame secondSame
      have one : first = second := List.inj_on_of_nodup_map traced.nodes.files firstMember
        secondMember (firstSame.2.trans (sameFile.trans secondSame.2.symm))
      refine absurd ?_ elsewhere
      rw [← secondSame.1, ← one, firstSame.1]
      exact sameId
    · rename_i otherFile
      rw [if_neg otherFile]
      exact sparing.unsignalled old before sameId

/-- The nodes keep their zero where there is nothing to forward. -/
theorem forwardSignals_spares (traced : Traced s) (flushed : Flushed s.globalState.tHead)
    (member : node ∈ s.globalState.tHead) (spares : s.Spares node.tid)
    (returned : forwardSignals.run s = .ok () t) :
    nodeIds t.globalState = nodeIds s.globalState ∧
      ∃ after ∈ t.globalState.tHead, after.tid = node.tid ∧ after.signalToForward = 0 := by
  obtain ⟨_, _, read, returned⟩ := ok_of_bind returned
  cases read
  split at returned
  · obtain ⟨_, _, read, returned⟩ := ok_of_bind returned
    cases read
    obtain ⟨_, looped, ended, returned⟩ := ok_of_bind returned
    cases returned
    have afterwards : (∀ node ∈ [], node ∈ s.globalState.tHead) ∧ Sparing s node.tid looped :=
      forM_ok (P := fun rest r => (∀ node ∈ rest, node ∈ s.globalState.tHead) ∧
          Sparing s node.tid r)
        (fun node rest r next sparing stepped =>
          ⟨fun other there => sparing.1 other (List.mem_cons_of_mem _ there),
            sparing_step traced (List.mem_map_of_mem (sparing.1 node List.mem_cons_self)) sparing.2
              stepped⟩)
        ⟨fun _ => id, rfl, rfl, spares, fun other there _ => flushed other there⟩ ended
    obtain ⟨-, sparing⟩ := afterwards
    have here : (node.tid, node.regs) ∈ nodeIds looped.globalState :=
      sparing.ids ▸ List.mem_map_of_mem member
    obtain ⟨after, there, same⟩ := List.mem_map.mp here
    simp only [Prod.mk.injEq] at same
    exact ⟨sparing.ids, after, there, same.1, sparing.unsignalled after there same.1⟩
  · cases returned
    exact ⟨rfl, node, member, rfl, flushed node member⟩

/-- After `forward_signal` nobody is on the list. -/
theorem forwardSignals_empties (returned : forwardSignals.run s = .ok () t) :
    t.resumeContext.threadsWithSignalsToForward = [] := by
  obtain ⟨_, _, read, returned⟩ := ok_of_bind returned
  cases read
  split at returned
  · obtain ⟨_, _, read, returned⟩ := ok_of_bind returned
    cases read
    obtain ⟨_, looped, ended, returned⟩ := ok_of_bind returned
    cases returned
    rfl
  · rename_i nobody
    cases returned
    exact not_not.mp nobody

/-- What `cont` leaves of the signals -/
theorem cont_settles (applies : s.applies k = true) :
    ∃ next, s.command k u .cont = some next ∧
      next.resumeContext.threadsWithSignalsToForward = [] ∧ Flushed next.globalState.tHead := by
  unfold Debugger.applies at applies
  split at applies
  · rename_i t returned
    obtain ⟨_, forwarded, first, second⟩ := ok_of_bind returned
    obtain ⟨next, commanded, -, context, flushed⟩ := command_cont (u := u) returned
    have same : t.resumeContext.threadsWithSignalsToForward =
        forwarded.resumeContext.threadsWithSignalsToForward :=
      applyChanges_touches.of_ok second .pending (by decide)
    refine ⟨next, commanded, ?_, flushed⟩
    rw [context, same]
    exact forwardSignals_empties first
  · cases applies

/-- What `cont` resumes a thread with: its signal, if it is on the list. -/
theorem cont_forwards (traced : Traced s) (flushed : Flushed s.globalState.tHead)
    (live : s.Live thread tid) (resumable : Resumable k tid) (applies : s.applies k = true) :
    ∃ next, s.command k u .cont = some next ∧ contSignals tid next.world.log =
      (if tid ∈ s.resumeContext.threadsWithSignalsToForward then
        s.unblocked (s.signalNumber thread) else 0) :: contSignals tid s.world.log := by
  obtain ⟨node, member, rfl⟩ := List.mem_map.mp live.node
  have spared (spares : s.Spares node.tid) :
      ∃ next, s.command k u .cont = some next ∧
        contSignals node.tid next.world.log = 0 :: contSignals node.tid s.world.log :=
    cont_resumes resumable traced (fun _ => forwardSignals_spares traced flushed member spares)
      applies
  by_cases listed : node.tid ∈ s.resumeContext.threadsWithSignalsToForward
  · rw [if_pos listed, Debugger.unblocked]
    by_cases blocked : s.signalNumber thread ∈ s.signalsToBlock
    · rw [if_pos blocked]
      exact spared (.inr ⟨thread, live.found, .inr blocked⟩)
    · rw [if_neg blocked]
      by_cases unset : s.signalNumber thread = 0
      · rw [unset]
        exact spared (.inr ⟨thread, live.found, .inl unset⟩)
      · exact cont_contSignals resumable traced live listed rfl unset blocked applies
  · rw [if_neg listed]
    exact spared (.inl listed)

end Spared

section Forwarded

variable {k : Kernel K} {s t : Debugger K} {results : List ThreadStatus}

theorem signalTurns_touches (batch : List ThreadStatus) :
    Touches {.threads, .injections, .pending, .forwardSignal}
      (batch.forM (signalTurn u) : Py K PUnit) :=
  Keeps.forM fun st _ => ((setForwardSignal_touches true).mono (by decide)).bind fun _ =>
    (handleStop_touches st _).mono (by decide)

/-- For every batch of signals and every table of catchers, outside the start of the process:
where `manage_change` returns and `cont` can make the pending changes of the breakpoints, every
chain has ended with a signal, and that one is forwarded. -/
theorem signals_forwarded (ready : Forwardable u s results)
    (resumable : ∀ node ∈ s.globalState.tHead, Resumable k node.tid)
    (running : s.resumeContext.isStartup = false)
    (managed : (manageChange k u results).run s = .ok () t) (applies : t.applies k = true) :
    ForwardsExactly k u s results ∧
      ∀ earlier st later, results = earlier ++ st :: later →
        ∃ thread signal, s.getThreadById st.tid = some thread ∧
          FinalSignal u ((stateAfter (manageChange k u earlier) s).receiving st thread) thread
            st.tid signal := by
  obtain ⟨traced, nobody, flushed, batch, own⟩ := ready
  have turns : (results.forM (signalTurn u)).run s = .ok () t :=
    (manageChange_run running batch.genuine batch.stopped).symm.trans managed
  have decided : Decided u s t results := by
    apply turns_decide own batch.distinct _ _ turns
    · intro st member
      obtain ⟨thread, live⟩ := batch.live st member
      exact ⟨thread, live.found⟩
    · intro st member stop
      exact (batch.stopped st member).2 (by simp [stop])
  have prefixes (earlier later : List ThreadStatus) (parts : results = earlier ++ later) :
      stateAfter (manageChange k u earlier) s = stateAfter (earlier.forM (signalTurn u)) s := by
    have sub : ∀ st ∈ earlier, st ∈ results := fun st member =>
      parts ▸ List.mem_append_left _ member
    have same := manageChange_run (k := k) (u := u) running
      (fun st member => batch.genuine st (sub st member))
      (fun st member => batch.stopped st (sub st member))
    simp only [stateAfter, same]
  have final : ∀ earlier st later, results = earlier ++ st :: later →
      ∀ thread, s.getThreadById st.tid = some thread →
        FinalSignal u ((stateAfter (manageChange k u earlier) s).receiving st thread) thread
          st.tid (t.signalNumber thread) := by
    intro earlier st later parts thread found
    rw [prefixes earlier _ parts]
    exact decided.final earlier st later parts thread found
  have touched := (signalTurns_touches results).of_ok turns
  have nodes : t.globalState.tHead = s.globalState.tHead :=
    congrArg Prod.fst (touched .nodes (by decide))
  have tracedAfter : Traced t := traced.frame touched (by decide)
  have flushedAfter : Flushed t.globalState.tHead := nodes ▸ flushed
  have foundAfter (id : Int) : t.getThreadById id = s.getThreadById id :=
    Debugger.getThreadById_of_identities decided.identities id
  have forwards {thread : Nat} {tid : Int} (found : s.getThreadById tid = some thread)
      (node : tid ∈ s.globalState.tHead.map (·.tid)) :
      ∃ next, t.command k u .cont = some next ∧ contSignals tid next.world.log =
        (if tid ∈ results.map (·.tid) then s.unblocked (t.signalNumber thread) else 0) ::
          contSignals tid t.world.log := by
    have live : t.Live thread tid := ⟨(foundAfter tid).trans found, nodes ▸ node⟩
    obtain ⟨member, there, rfl⟩ := List.mem_map.mp node
    have resumed := cont_forwards (u := u) tracedAfter flushedAfter live (resumable member there)
      applies
    simpa only [decided.listed, nobody, List.not_mem_nil, false_or, Debugger.unblocked,
      decided.blocks] using resumed
  obtain ⟨next, commanded, emptied, settled⟩ := cont_settles (u := u) applies
  have after : stateAfter (manageChange k u results) s = t := stateAfter_of_ok managed
  refine ⟨?_, ?_⟩
  · refine ⟨next, after.symm ▸ commanded, ?_, ?_, emptied, settled⟩
    · intro earlier st later parts thread signal found chain
      have member : st ∈ results := parts ▸ List.mem_append_right _ List.mem_cons_self
      obtain ⟨thread', live⟩ := batch.live st member
      obtain ⟨next', commanded', resumed⟩ := forwards found live.node
      obtain rfl : next = next' := Option.some.inj (commanded.symm.trans commanded')
      rw [if_pos (List.mem_map_of_mem member)] at resumed
      rw [after, chain.unique (final earlier st later parts thread found)]
      exact resumed
    · intro node member outside
      obtain ⟨thread, found⟩ := (traced.known _ (List.mem_map_of_mem member)).found
      obtain ⟨next', commanded', resumed⟩ := forwards found (List.mem_map_of_mem member)
      obtain rfl : next = next' := Option.some.inj (commanded.symm.trans commanded')
      rw [if_neg outside] at resumed
      rw [after]
      exact resumed
  · intro earlier st later parts
    obtain ⟨thread, live⟩ := batch.live st (parts ▸ List.mem_append_right _ List.mem_cons_self)
    exact ⟨thread, _, live.found, final earlier st later parts thread live.found⟩

end Forwarded

/-- The function 0 replaces the signal of its thread by 12, every other one by 10. -/
def swapping : UserCode K := fun callback threadId s =>
  ((s.getThreadById threadId).toList.map fun thread =>
    .setSignal thread (if callback = 0 then 12 else 10), none)

theorem swapping_setsOwn (callback : Callback) : SetsOwn (swapping : UserCode K) callback where
  returns _ _ := rfl
  own threadId s thread signal member := by
    obtain ⟨own, here, same⟩ := List.mem_map.mp member
    cases same
    exact Option.mem_toList.mp here

theorem idle_setsOwn (callback : Callback) : SetsOwn (idle : UserCode K) callback where
  returns _ _ := rfl
  own _ _ _ _ member := absurd member List.not_mem_nil

/-- Two threads, at no instruction that matters -/
def twoThreads : World Script := .nops { registers := fun _ => some fun _ => 0x1000 }

/-- A `SIGUSR1` for thread 1, and a `SIGTERM` for thread 2 -/
def twoSignals : List ThreadStatus := [⟨1, 0x0a7f, .delivery⟩, ⟨2, 0x0f7f, .delivery⟩]

theorem twoSignals_forwardable {u : UserCode Script} {s : Debugger Script} (traced : Traced s)
    (own : s.CatchersSetOwn u)
    (idle : s.resumeContext.threadsWithSignalsToForward = [] ∧ Flushed s.globalState.tHead)
    (known : s.getThreadById 1 = some 0 ∧ s.getThreadById 2 = some 1)
    (nodes : s.globalState.tHead.map (·.tid) = [2, 1]) : Forwardable u s twoSignals where
  traced := traced
  nobody := idle.1
  flushed := idle.2
  own := own
  batch :=
    { distinct := by decide
      genuine := by decide
      stopped := by decide
      live := by
        intro st member
        simp only [twoSignals, List.mem_cons, List.not_mem_nil, or_false] at member
        rcases member with rfl | rfl
        · exact ⟨0, known.1, by simp [nodes]⟩
        · exact ⟨1, known.2, by simp [nodes]⟩ }

instance (threads : List Thread) : Decidable (Flushed threads) :=
  inferInstanceAs (Decidable (∀ t ∈ threads, t.signalToForward = 0))

/-- Thread 1 goes on with the signal that the chain of its catchers ends with. -/
theorem twoSignals_forwarded : ∃ s, (debugging scripted swapping).run (.initial twoThreads)
      [.registerNewThread 1, .registerNewThread 2, .catchSignal 10 (some 0) true] = some s ∧
    ForwardsExactly scripted swapping s twoSignals := by
  obtain ⟨s, reached, idle, known, nodes, running, _, t, managed, applies⟩ :
      ∃ s, (debugging scripted swapping).run (.initial twoThreads)
          [.registerNewThread 1, .registerNewThread 2, .catchSignal 10 (some 0) true] = some s ∧
        (s.resumeContext.threadsWithSignalsToForward = [] ∧ Flushed s.globalState.tHead) ∧
        (s.getThreadById 1 = some 0 ∧ s.getThreadById 2 = some 1) ∧
        s.globalState.tHead.map (·.tid) = [2, 1] ∧ s.resumeContext.isStartup = false ∧
        Returns (manageChange scripted swapping twoSignals)
          (fun _ t => t.applies scripted = true) s :=
    Machine.exists_of_run (by decide +kernel)
  have ready : Forwardable swapping s twoSignals :=
    twoSignals_forwardable (reachable_traced reached) (fun _ _ _ => swapping_setsOwn _) idle known
      nodes
  have forwarded := signals_forwarded ready (fun _ _ _ _ _ _ => rfl) running managed applies
  exact ⟨s, reached, forwarded.1⟩

/-- The signal of thread 2 has no catcher, and the thread is not resumed with it. -/
def Debugger.LosesSecond (u : UserCode Script) (s : Debugger Script) : Prop :=
  let received := (stateAfter (manageChange scripted u [⟨1, 0x0a7f, .delivery⟩]) s).receiving
    ⟨2, 0x0f7f, .delivery⟩ 1
  let managed := stateAfter (manageChange scripted u twoSignals) s
  (received.signalNumber 1 = 15 ∧ received.caughtSignals.get? 15 = none ∧ s.unblocked 15 = 15) ∧
    ((managed.command scripted u .cont).all fun next =>
      contSignals 2 next.world.log ≠ 15 :: contSignals 2 managed.world.log) = true

instance (u : UserCode Script) (s : Debugger Script) : Decidable (s.LosesSecond u) :=
  inferInstanceAs (Decidable (_ ∧ _))

theorem Debugger.LosesSecond.not_forwards {u : UserCode Script} {s : Debugger Script}
    (loses : s.LosesSecond u) (found : s.getThreadById 2 = some 1) :
    ¬ ForwardsExactly scripted u s twoSignals := by
  rintro ⟨next, commanded, forwarded, -⟩
  obtain ⟨⟨number, uncaught, allowed⟩, lost⟩ := loses
  rw [commanded, Option.all_some, decide_eq_true_eq] at lost
  apply lost
  rw [← allowed]
  apply forwarded [⟨1, 0x0a7f, .delivery⟩] ⟨2, 0x0f7f, .delivery⟩ [] rfl 1 15 found
  refine ⟨_, .refl, ?_⟩
  rw [number]
  exact .uncaught uncaught

/-- Where the catchers of thread 1 close a loop, while the process starts, and where a hardware
breakpoint that has been disabled twice makes `cont` raise: thread 2 does not get its signal. -/
theorem signals_lost :
    (∃ s, (debugging scripted swapping).run (.initial twoThreads)
        [.registerNewThread 1, .registerNewThread 2, .catchSignal 10 (some 0) true,
          .catchSignal 12 (some 1) true] = some s ∧
      Forwardable swapping s twoSignals ∧ s.resumeContext.isStartup = false ∧
      ¬ ForwardsExactly scripted swapping s twoSignals) ∧
    (∃ s, Forwardable idle s twoSignals ∧ s.resumeContext.isStartup = true ∧
      ¬ ForwardsExactly scripted idle s twoSignals) ∧
    ∃ s, (debugging scripted idle).run (.initial twoThreads)
        [.registerNewThread 1, .registerNewThread 2, .breakpoint 0x2000 "" true none 1 none,
          .act (.disableBreakpoint 0), .cont, .act (.disableBreakpoint 0)] = some s ∧
      Forwardable idle s twoSignals ∧ s.resumeContext.isStartup = false ∧
      Returns (manageChange scripted idle twoSignals) (fun _ t => t.applies scripted = false) s ∧
      ¬ ForwardsExactly scripted idle s twoSignals := by
  refine ⟨?_, ?_, ?_⟩
  · obtain ⟨s, reached, quiet, known, nodes, running, loses⟩ :
        ∃ s, (debugging scripted swapping).run (.initial twoThreads)
            [.registerNewThread 1, .registerNewThread 2, .catchSignal 10 (some 0) true,
              .catchSignal 12 (some 1) true] = some s ∧
          (s.resumeContext.threadsWithSignalsToForward = [] ∧ Flushed s.globalState.tHead) ∧
          (s.getThreadById 1 = some 0 ∧ s.getThreadById 2 = some 1) ∧
          s.globalState.tHead.map (·.tid) = [2, 1] ∧ s.resumeContext.isStartup = false ∧
          s.LosesSecond swapping :=
      Machine.exists_of_run (by decide +kernel)
    exact ⟨s, reached, twoSignals_forwardable (reachable_traced reached)
      (fun _ _ _ => swapping_setsOwn _) quiet known nodes, running, loses.not_forwards known.2⟩
  · obtain ⟨s, reached, quiet, known, nodes, loses⟩ :
        ∃ s, (debugging scripted idle).run (.initial twoThreads)
            [.registerNewThread 1, .registerNewThread 2] = some s ∧
          (s.resumeContext.threadsWithSignalsToForward = [] ∧ Flushed s.globalState.tHead) ∧
          (s.getThreadById 1 = some 0 ∧ s.getThreadById 2 = some 1) ∧
          s.globalState.tHead.map (·.tid) = [2, 1] ∧
          { s with resumeContext := { s.resumeContext with isStartup := true } }.LosesSecond
            idle :=
      Machine.exists_of_run (by decide +kernel)
    have traced : Traced { s with resumeContext := { s.resumeContext with isStartup := true } } :=
      (reachable_traced reached).of_ids rfl rfl rfl
    exact ⟨_, twoSignals_forwardable traced (fun _ _ _ => idle_setsOwn _) quiet known nodes, rfl,
      loses.not_forwards known.2⟩
  · obtain ⟨s, reached, quiet, known, nodes, running, raises, loses⟩ :
        ∃ s, (debugging scripted idle).run (.initial twoThreads)
            [.registerNewThread 1, .registerNewThread 2, .breakpoint 0x2000 "" true none 1 none,
              .act (.disableBreakpoint 0), .cont, .act (.disableBreakpoint 0)] = some s ∧
          (s.resumeContext.threadsWithSignalsToForward = [] ∧ Flushed s.globalState.tHead) ∧
          (s.getThreadById 1 = some 0 ∧ s.getThreadById 2 = some 1) ∧
          s.globalState.tHead.map (·.tid) = [2, 1] ∧ s.resumeContext.isStartup = false ∧
          Returns (manageChange scripted idle twoSignals)
            (fun _ t => t.applies scripted = false) s ∧ s.LosesSecond idle :=
      Machine.exists_of_run (by decide +kernel)
    exact ⟨s, reached, twoSignals_forwardable (reachable_traced reached)
      (fun _ _ _ => idle_setsOwn _) quiet known nodes, running, raises, loses.not_forwards known.2⟩

end Libdebug.Ptrace
