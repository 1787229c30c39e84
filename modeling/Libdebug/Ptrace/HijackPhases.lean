import Libdebug.Ptrace.HijackLoops
import Libdebug.Ptrace.Footprints
import Libdebug.Ptrace.SyscallPhases

/-!
A system call of one thread whose number the callbacks on its enter stop may replace. The
handlers remember between the two stops that the call has been entered, and whether its
exit is to be skipped. After the exit stop nothing is remembered, unless the chain of
callbacks was found to be a loop: then nothing was remembered in between.
-/

namespace Libdebug.Ptrace

open Libdebug.Foundation Libdebug.Cffi

variable {K : Type} {u : UserCode K}

/-- The callbacks of the handlers return, and those on enter stops leave the handlers as
they are. -/
structure Cooperative (u : UserCode K) (handlers : Dict Nat SyscallHandler) : Prop where
  enterReturns : ∀ {number handler callback}, handlers.get? number = some handler →
    handler.onEnterUser = some callback → ∀ threadId t, (u callback threadId t).2 = none
  enterKeeps : ∀ {number handler callback}, handlers.get? number = some handler →
    handler.onEnterUser = some callback → ∀ threadId (t : Debugger K),
      (t.performAll (u callback threadId t).1).handledSyscalls = t.handledSyscalls
  exitReturns : ∀ {number handler callback}, handlers.get? number = some handler →
    handler.onExitUser = some callback → ∀ threadId t, (u callback threadId t).2 = none

/-- From its place on, the chain leads to a handler that is not recursive and replaces its
number by this one. -/
def Skipped (u : UserCode K) (thread : ThreadContext) (p : Place Nat (Debugger K))
    (number : Nat) : Prop :=
  ∃ q t, Reaches (HijacksSyscall u thread) p q ∧
    RewritesSyscall u thread false q.current q.state number t ∧
    number ∈ t.handledSyscalls.keys

/-- The handler of the last number after an enter stop. -/
def SyscallHandler.enteredVia (handler : SyscallHandler) (skipped : Bool) : SyscallHandler :=
  if skipped then { handler with hasEntered := true, skipExit := true } else handler.entered

/-! ### Enter stops -/

section Enter

variable {thread : ThreadContext} {p q : Place Nat (Debugger K)} {number after : Nat}
  {s t : Debugger K} {handlers : Dict Nat SyscallHandler}

theorem RewritesSyscall.unique {recursive recursive' : Bool} {after' : Nat} {t' : Debugger K}
    (one : RewritesSyscall u thread recursive number s after t)
    (other : RewritesSyscall u thread recursive' number s after' t') :
    recursive = recursive' ∧ after = after' ∧ t = t' := by
  obtain ⟨handler, callback, found, user, -, rfl, returned⟩ := one.called
  obtain ⟨handler', callback', found', user', -, rfl, returned'⟩ := other.called
  cases found.symm.trans found'
  cases user.symm.trans user'
  cases returned.symm.trans returned'
  exact ⟨rfl, one.shown.symm.trans other.shown, rfl⟩

theorem follows_unique {q' : Place Nat (Debugger K)}
    (one : Follows (HijacksSyscall u thread) p q)
    (other : Follows (HijacksSyscall u thread) p q') : q = q' := by
  obtain ⟨-, current, state⟩ := one.linked.1.unique other.linked.1
  have before := one.before.trans other.before.symm
  cases q
  cases q'
  simp_all

theorem handlers_of_callback (cooperative : Cooperative u handlers)
    (same : s.handledSyscalls = handlers) {handler : SyscallHandler} {callback : Callback}
    (found : s.handledSyscalls.get? number = some handler)
    (user : handler.onEnterUser = some callback)
    (returned : (runCallback u (.onEnter number) callback thread.threadId).run s = .ok () t) :
    t.handledSyscalls = handlers := by
  rw [← stateAfter_of_ok returned, stateAfter_runCallback,
    cooperative.enterKeeps (same ▸ found) user]
  exact same

theorem handlers_of_rewrites {recursive : Bool} (cooperative : Cooperative u handlers)
    (same : s.handledSyscalls = handlers)
    (rewrites : RewritesSyscall u thread recursive number s after t) :
    t.handledSyscalls = handlers := by
  obtain ⟨handler, callback, found, user, -, -, returned⟩ := rewrites.called
  exact handlers_of_callback cooperative same found user returned

/-- What an enter stop leaves: the handler of the last number has been told. -/
structure Remembers (thread : ThreadContext) (p : Place Nat (Debugger K)) (t : Debugger K)
    (skipped : Bool) : Prop where
  iff_skipped : skipped = true ↔ Skipped u thread p (t.syscallNumber thread)
  told : ∀ number, t.handledSyscalls.get? number =
    if number = t.syscallNumber thread
    then (p.state.handledSyscalls.get? number).map (·.enteredVia skipped)
    else p.state.handledSyscalls.get? number

theorem skipped_follows (follows : Follows (HijacksSyscall u thread) p q) :
    Skipped u thread p number ↔ Skipped u thread q number := by
  constructor
  · rintro ⟨last, t, reached, rewrites, handled⟩
    rcases reached.cases_head with rfl | ⟨q', follows', rest⟩
    · cases (rewrites.unique follows.linked.1).1
    · obtain rfl := follows_unique follows follows'
      exact ⟨last, t, rest, rewrites, handled⟩
  · rintro ⟨last, t, reached, rest⟩
    exact ⟨last, t, .head follows reached, rest⟩

theorem Remembers.follows {skipped : Bool} (cooperative : Cooperative u handlers)
    (same : p.state.handledSyscalls = handlers)
    (follows : Follows (HijacksSyscall u thread) p q)
    (remembers : Remembers (u := u) thread q t skipped) :
    Remembers (u := u) thread p t skipped := by
  have kept := handlers_of_rewrites cooperative same follows.linked.1
  constructor
  · rw [remembers.iff_skipped, skipped_follows follows]
  · intro number
    rw [remembers.told number, kept, same]

/-- At a place where the chain ends, only its own callback may skip. -/
theorem skipped_of_ends {result : EStateM.Result Abort (Debugger K) Unit}
    (ends : Ends (enterBody u thread) p result) (skipped : Skipped u thread p number) :
    ∃ t, RewritesSyscall u thread false p.current p.state number t ∧
      number ∈ t.handledSyscalls.keys := by
  obtain ⟨last, t, reached, rewrites, handled⟩ := skipped
  rcases reached.cases_head with rfl | ⟨q, follows, -⟩
  · exact ⟨t, rewrites, handled⟩
  · exact absurd ends (enterBody_chained.not_ends follows .hang)

theorem Remembers.kept (ends : Ends (enterBody u thread) p (.ok () t))
    (shown : t.syscallNumber thread = p.current)
    (told : ∀ number, t.handledSyscalls.get? number =
      if number = p.current then (p.state.handledSyscalls.get? number).map (·.entered)
      else p.state.handledSyscalls.get? number) :
    Remembers (u := u) thread p t false := by
  constructor
  · simp only [Bool.false_eq_true, false_iff, shown]
    intro skipped
    obtain ⟨_, rewrites, -⟩ := skipped_of_ends ends skipped
    exact rewrites.another rfl
  · intro number
    rw [told number, shown]
    rfl

/-- A system call without a handler is not remembered. -/
theorem Remembers.unhandled (absent : t.syscallNumber thread ∉ p.state.handledSyscalls.keys)
    (same : t.handledSyscalls = p.state.handledSyscalls)
    (unskipped : ¬ Skipped u thread p (t.syscallNumber thread)) :
    Remembers (u := u) thread p t false := by
  constructor
  · simpa using unskipped
  · intro number
    rw [same]
    split
    · rename_i last
      rw [last, Dict.get?_eq_none.mpr absent]
      rfl
    · rfl

/-- Without any callback the process stops on its system call. -/
def SyscallHandler.stops (handler : SyscallHandler) : Bool :=
  handler.onEnterUser = none && handler.onExitUser = none && handler.enabled

theorem leaveEnter_spec {handler : SyscallHandler}
    (found : s.handledSyscalls.get? number = some handler) :
    ∃ t, (leaveEnter number : Py K Unit).run s = .ok () t ∧ t.globalState = s.globalState ∧
      ∀ n, t.handledSyscalls.get? n = if n = number
        then some { handler with hasEntered := handler.hasEntered || handler.stops }
        else s.handledSyscalls.get? n := by
  simp only [leaveEnter, EStateM.run_bind, EStateM.run_get, stopsOn_of_found found]
  cases stops : handler.stops with
  | true =>
      rw [SyscallHandler.stops] at stops
      refine ⟨(s.updateHandler number ({ · with hasEntered := true })).setResume false,
        by rw [if_pos stops]; rfl, rfl, fun n => ?_⟩
      have told : Handled s _ number _ none := handled_updateHandler found
        ({ · with hasEntered := true })
      rw [Bool.or_true]
      exact told.handlers n
  | false =>
      rw [SyscallHandler.stops] at stops
      refine ⟨s, by rw [if_neg (by simp [stops])]; rfl, rfl, fun n => ?_⟩
      rw [Bool.or_false]
      exact (Handled.refl found : Handled s s number handler none).handlers n

/-- A handler with a callback on enter stops never stops the process. -/
theorem leaveEnter_of_callback {handler : SyscallHandler} {callback : Callback}
    (found : s.handledSyscalls.get? number = some handler)
    (user : handler.onEnterUser = some callback) :
    (leaveEnter number : Py K Unit).run s = .ok () s := by
  simp only [leaveEnter, EStateM.run_bind, EStateM.run_get, stopsOn_of_found found, user]
  rfl

theorem Remembers.callback {skipped : Bool} (remembers : Remembers (u := u) thread p t skipped)
    {handler : SyscallHandler} {callback : Callback}
    (found : p.state.handledSyscalls.get? number = some handler)
    (user : handler.onEnterUser = some callback) :
    ∃ still, t.handledSyscalls.get? number = some still ∧ still.onEnterUser = some callback := by
  rw [remembers.told number, found]
  split
  · refine ⟨handler.enteredVia skipped, rfl, ?_⟩
    cases skipped <;> exact user
  · exact ⟨handler, rfl, user⟩

/-- The turn of a handler whose callback is not called. -/
theorem remembers_of_silent {handler : SyscallHandler}
    (found : p.state.handledSyscalls.get? p.current = some handler)
    (shown : p.state.syscallNumber thread = p.current)
    (silent : handler.onEnterUser = none ∨ handler.enabled = false) :
    ∃ t, Ends (enterBody u thread) p (.ok () t) ∧ Remembers (u := u) thread p t false := by
  have same (recurse : Nat → List Nat → Py K Unit) :
      (enterBody u thread p.current p.visited recurse).run p.state =
        ((if handler.onEnterPprint || handler.onExitPprint || handler.onExitUser.isSome then
            setHasEntered p.current
          else pure ()) >>= fun _ => leaveEnter p.current).run p.state := by
    simp only [enterBody, EStateM.run_bind, EStateM.run_get, found, enterHandler_silent silent]
  have remembers {t : Debugger K} (ends : Ends (enterBody u thread) p (.ok () t))
      (state : t.globalState = p.state.globalState)
      (told : ∀ n, t.handledSyscalls.get? n =
        if n = p.current then some handler.entered else p.state.handledSyscalls.get? n) :
      Remembers (u := u) thread p t false := by
    apply Remembers.kept ends
    · rw [← shown, Debugger.syscallNumber, Debugger.readReg, state]
      rfl
    · intro n
      rw [told n]
      split
      · rename_i here
        rw [here, found, Option.map_some]
      · rfl
  by_cases tracked : handler.onEnterPprint || handler.onExitPprint || handler.onExitUser.isSome
  · have marked : Handled p.state _ p.current _ none :=
      handled_updateHandler found ({ · with hasEntered := true })
    obtain ⟨t, left, state, told⟩ := leaveEnter_spec marked.found
    have ends : Ends (enterBody u thread) p (.ok () t) := fun recurse => by
      rw [same, if_pos tracked]
      exact left
    refine ⟨t, ends, remembers ends state fun n => ?_⟩
    have entered : handler.entered = { handler with hasEntered := true } := by
      simp only [Bool.or_assoc] at tracked
      simp [SyscallHandler.entered, SyscallHandler.tracksPhase, Bool.or_assoc, tracked]
    rw [told n, marked.handlers n, entered]
    split <;> rfl
  · obtain ⟨t, left, state, told⟩ := leaveEnter_spec found
    have ends : Ends (enterBody u thread) p (.ok () t) := fun recurse => by
      rw [same, if_neg tracked]
      exact left
    refine ⟨t, ends, remembers ends state fun n => ?_⟩
    have stops : handler.stops = handler.tracksPhase := by
      simp only [Bool.not_eq_true, Bool.or_eq_false_iff, Option.isSome_eq_false_iff,
        Option.isNone_iff_eq_none] at tracked
      rcases silent with none | disabled <;>
        simp [SyscallHandler.stops, SyscallHandler.tracksPhase, *]
    rw [told n, SyscallHandler.entered, stops]

/-- Without a handler nothing is remembered. -/
theorem remembers_of_absent (found : p.state.handledSyscalls.get? p.current = none)
    (shown : p.state.syscallNumber thread = p.current) :
    Ends (enterBody u thread) p (.ok () p.state) ∧
      Remembers (u := u) thread p p.state false := by
  have ends : Ends (enterBody u thread) p (.ok () p.state) := fun recurse => by
    simp only [enterBody, EStateM.run_bind, EStateM.run_get, found]
    rfl
  refine ⟨ends, .unhandled ?_ rfl fun skipped => ?_⟩
  · rw [shown]
    exact Dict.get?_eq_none.mp found
  · obtain ⟨_, rewrites, -⟩ := skipped_of_ends ends skipped
    obtain ⟨handler, _, found', -⟩ := rewrites.called
    cases found.symm.trans found'

section Called

variable {handler : SyscallHandler} {callback : Callback}
  (found : p.state.handledSyscalls.get? p.current = some handler)
  (user : handler.onEnterUser = some callback) (enabled : handler.enabled = true)
  (returned : (runCallback u (.onEnter p.current) callback thread.threadId).run p.state =
    .ok () t)
  (kept : t.handledSyscalls = p.state.handledSyscalls)

include found user enabled returned kept

/-- The turn of a handler whose callback leaves the number as it is. -/
theorem remembers_of_own (own : t.syscallNumber thread = p.current) :
    ∃ after, Ends (enterBody u thread) p (.ok () after) ∧
      Remembers (u := u) thread p after false := by
  have marked : Handled t _ p.current _ none :=
    handled_updateHandler (kept ▸ found) ({ · with hasEntered := true })
  have ends : Ends (enterBody u thread) p (.ok () _) := fun recurse => by
    rw [enterBody_of_returned found user enabled returned, if_pos own]
    exact leaveEnter_of_callback marked.found user
  refine ⟨_, ends, .kept ends own fun n => ?_⟩
  have entered : handler.entered = { handler with hasEntered := true } := by
    simp [SyscallHandler.entered, SyscallHandler.tracksPhase, enabled]
  rw [marked.handlers n, kept]
  split
  · rename_i current
    rw [current, found, Option.map_some, entered]
  · rfl

/-- The turn of a handler whose callback changes the number to one without a handler. -/
theorem remembers_of_unlisted (cooperative : Cooperative u handlers)
    (same : p.state.handledSyscalls = handlers) (own : ¬ t.syscallNumber thread = p.current)
    (absent : t.syscallNumber thread ∉ t.handledSyscalls.keys) :
    Ends (enterBody u thread) p (.ok () t) ∧ Remembers (u := u) thread p t false := by
  have ends : Ends (enterBody u thread) p (.ok () t) := fun recurse => by
    rw [enterBody_of_returned found user enabled returned, if_neg own, if_pos absent]
    exact leaveEnter_of_callback (kept ▸ found) user
  refine ⟨ends, .unhandled (kept ▸ absent) kept fun skipped => ?_⟩
  obtain ⟨t', rewrites, member⟩ := skipped_of_ends ends skipped
  rw [handlers_of_rewrites cooperative same rewrites, ← same, ← kept] at member
  exact absent member

omit enabled returned in
/-- The turn of a handler that is not recursive and whose callback changes the number to that of
another handler. -/
theorem remembers_of_skipping
    (rewrites : RewritesSyscall u thread false p.current p.state (t.syscallNumber thread) t)
    (handled : t.syscallNumber thread ∈ t.handledSyscalls.keys) :
    ∃ after, Ends (enterBody u thread) p (.ok () after) ∧
      Remembers (u := u) thread p after true := by
  let skipping := t.updateHandler (t.syscallNumber thread)
    ({ · with hasEntered := true, skipExit := true })
  have other : p.current ≠ t.syscallNumber thread := fun own => rewrites.another own.symm
  have still : skipping.handledSyscalls.get? p.current = some handler := by
    simp only [skipping, Debugger.updateHandler, Dict.get?_modify, if_neg other, kept, found]
  have ends : Ends (enterBody u thread) p (.ok () skipping) := fun recurse => by
    rw [enterBody_of_rewrites rewrites handled]
    exact leaveEnter_of_callback still user
  refine ⟨skipping, ends, ?_, fun n => ?_⟩
  · simp only [true_iff]
    exact ⟨p, t, .refl, rewrites, handled⟩
  · have number : skipping.syscallNumber thread = t.syscallNumber thread := rfl
    change (t.handledSyscalls.modify _ _).get? n = _
    rw [number, Dict.get?_modify, kept]
    split
    · rename_i last
      rw [last]
      rfl
    · rfl

end Called

/-- The turn of a handler with which the chain ends, unless it closes a loop. -/
theorem remembers_of_ends (cooperative : Cooperative u handlers)
    (same : p.state.handledSyscalls = handlers)
    (shown : p.state.syscallNumber thread = p.current)
    {result : EStateM.Result Abort (Debugger K) Unit}
    (ends : Ends (enterBody u thread) p result) :
    (∃ t skipped, result = .ok () t ∧ Remembers (u := u) thread p t skipped) ∨
      ∃ after t, RewritesSyscall u thread true p.current p.state after t ∧ after ∈ p.visited := by
  cases found : p.state.handledSyscalls.get? p.current with
  | none =>
      obtain ⟨here, remembers⟩ := remembers_of_absent (u := u) found shown
      exact .inl ⟨p.state, false, ends.unique here, remembers⟩
  | some handler =>
  by_cases silent : handler.onEnterUser = none ∨ handler.enabled = false
  · obtain ⟨t, here, remembers⟩ := remembers_of_silent (u := u) found shown silent
    exact .inl ⟨t, false, ends.unique here, remembers⟩
  simp only [not_or, Bool.not_eq_false, ← ne_eq, Option.ne_none_iff_exists'] at silent
  obtain ⟨⟨callback, user⟩, enabled⟩ := silent
  obtain ⟨t, returned⟩ : ∃ t,
      (runCallback u (.onEnter p.current) callback thread.threadId).run p.state = .ok () t :=
    ⟨_, run_runCallback (cooperative.enterReturns (same ▸ found) user _ _)⟩
  have kept : t.handledSyscalls = p.state.handledSyscalls :=
    (handlers_of_callback cooperative same found user returned).trans same.symm
  by_cases own : t.syscallNumber thread = p.current
  · obtain ⟨after, here, remembers⟩ := remembers_of_own found user enabled returned kept own
    exact .inl ⟨after, false, ends.unique here, remembers⟩
  by_cases handled : t.syscallNumber thread ∉ t.handledSyscalls.keys
  · obtain ⟨here, remembers⟩ :=
      remembers_of_unlisted found user enabled returned kept cooperative same own handled
    exact .inl ⟨t, false, ends.unique here, remembers⟩
  rw [not_not] at handled
  have rewrites : RewritesSyscall u thread handler.recursive p.current p.state
      (t.syscallNumber thread) t :=
    ⟨⟨handler, callback, found, user, enabled, rfl, returned⟩, rfl, own⟩
  cases recursive : handler.recursive with
  | false =>
      rw [recursive] at rewrites
      obtain ⟨after, here, remembers⟩ := remembers_of_skipping found user kept rewrites handled
      exact .inl ⟨after, true, ends.unique here, remembers⟩
  | true =>
      rw [recursive] at rewrites
      by_cases visited : t.syscallNumber thread ∈ p.visited
      · exact .inr ⟨_, t, rewrites, visited⟩
      · have follows : Follows (HijacksSyscall u thread) p
            ⟨t.syscallNumber thread, p.visited, t⟩ := ⟨⟨rewrites, handled⟩, visited, rfl⟩
        exact absurd ends (enterBody_chained.not_ends follows .hang)

/-- An enter stop at which no loop closes. -/
theorem manageSyscallOnEnter_remembers (cooperative : Cooperative u s.handledSyscalls)
    (shown : s.syscallNumber thread = number) (fuel : Nat)
    (enough : s.handledSyscalls.keys.length < fuel)
    (opens : ¬ ClosesLoop (HijacksSyscall u thread) (RewritesSyscall u thread)
      ⟨number, [], s⟩ true) :
    ∃ t skipped, (manageSyscallOnEnter u thread fuel number [number]).run s = .ok () t ∧
      Remembers (u := u) thread ⟨number, [], s⟩ t skipped := by
  let Holds (p : Place Nat (Debugger K)) (result : EStateM.Result Abort (Debugger K) Unit) : Prop :=
    p.state.handledSyscalls = s.handledSyscalls → p.state.syscallNumber thread = p.current →
    ¬ ClosesLoop (HijacksSyscall u thread) (RewritesSyscall u thread) p true →
    ∃ t skipped, result = .ok () t ∧ Remembers (u := u) thread p t skipped
  let start : Place Nat (Debugger K) := ⟨number, [], s⟩
  have walked : Holds start
      ((walk (enterBody u thread) .hang fuel start.current start.visited).run s) := by
    apply enterBody_chained.walk_induct .hang (motive := Holds) _ _ start
      ((unvisited_le _ _).trans_lt enough)
    · intro p result ends same shown opens
      rcases remembers_of_ends cooperative same shown ends with remembers | ⟨after, t, closed⟩
      · exact remembers
      · exact (opens ⟨p, after, t, .refl, closed⟩).elim
    · intro p q result follows ih same shown opens
      have kept := handlers_of_rewrites cooperative same follows.linked.1
      obtain ⟨t, skipped, rfl, remembers⟩ := ih kept follows.linked.1.shown
        fun ⟨last, after, t, reached, closed⟩ =>
          opens ⟨last, after, t, .head follows reached, closed⟩
      have remembers := remembers.follows cooperative same follows
      obtain ⟨handler, callback, found, user, -⟩ := follows.linked.1.called
      obtain ⟨still, own, user'⟩ := remembers.callback found user
      exact ⟨t, skipped, leaveEnter_of_callback own user', remembers⟩
  rw [manageSyscallOnEnter_eq_walk]
  exact walked rfl shown opens

end Enter

/-! ### Exit stops -/

section Exit

variable {s t : Debugger K} {thread : ThreadContext} {number : Nat}

/-- No handler but the one of this number remembers an enter stop. -/
def Debugger.NothingElseEntered (s : Debugger K) (number : Nat) : Prop :=
  ∀ n handler, s.handledSyscalls.get? n = some handler → n ≠ number →
    handler.hasEntered = false ∧ handler.skipExit = false

namespace Debugger

/-- How often the system call has been handled. -/
def hits (s : Debugger K) (number : Nat) : Option Nat :=
  (s.handledSyscalls.get? number).map (·.hitCount)

/-- All that functions of the user do to handlers is to switch them on and off. -/
theorem handlers_perform (s : Debugger K) (action : Action) :
    (s.perform action).handledSyscalls = s.handledSyscalls ∨
      ∃ number enabled, (s.perform action).handledSyscalls =
        s.handledSyscalls.modify number ({ · with enabled, hasEntered := false }) := by
  cases action with
  | setSignal thread signal =>
      left
      simp only [perform, setSignal]
      split <;> rfl
  | enableHandler number => exact .inr ⟨number, true, rfl⟩
  | disableHandler number => exact .inr ⟨number, false, rfl⟩
  | _ => exact .inl rfl

theorem hits_perform (s : Debugger K) (action : Action) (number : Nat) :
    (s.perform action).hits number = s.hits number := by
  simp only [hits]
  rcases s.handlers_perform action with same | ⟨changed, enabled, same⟩ <;> rw [same]
  rw [Dict.get?_modify]
  split
  · rename_i here
    rw [here, Option.map_map]
    rfl
  · rfl

theorem nothingElseEntered_perform (action : Action) (nothing : s.NothingElseEntered number) :
    (s.perform action).NothingElseEntered number := by
  intro n handler found other
  rcases s.handlers_perform action with same | ⟨changed, enabled, same⟩ <;> rw [same] at found
  · exact nothing n handler found other
  · rw [Dict.get?_modify] at found
    split at found
    · rename_i here
      obtain ⟨before, earlier, rfl⟩ := Option.map_eq_some_iff.mp found
      exact ⟨rfl, (nothing changed before earlier (here ▸ other)).2⟩
    · exact nothing n handler found other

theorem hits_performAll (s : Debugger K) (actions : List Action) (number : Nat) :
    (s.performAll actions).hits number = s.hits number := by
  induction actions generalizing s with
  | nil => rfl
  | cons action rest ih => exact (ih (s.perform action)).trans (s.hits_perform action number)

theorem nothingElseEntered_performAll (actions : List Action)
    (nothing : s.NothingElseEntered number) :
    (s.performAll actions).NothingElseEntered number := by
  induction actions generalizing s with
  | nil => exact nothing
  | cons action rest ih => exact ih (nothingElseEntered_perform action nothing)

end Debugger

/-- A call on the exit stop, if there is one. -/
theorem callOnExit_spec (thread : ThreadContext) {handler : SyscallHandler}
    (returns : ∀ callback, handler.onExitUser = some callback →
      ∀ threadId t, (u callback threadId t).2 = none)
    (nothing : s.NothingElseEntered number) :
    ∃ t, (callOnExit u thread number handler).run s = .ok () t ∧
      t.called = (if handler.enabled && !handler.skipExit && handler.onExitUser.isSome
        then [(.onExit number, thread.threadId)] else []) ++ s.called ∧
      (∀ n, t.hits n = s.hits n) ∧ t.NothingElseEntered number := by
  unfold callOnExit
  split
  · rename_i callback user counts
    refine ⟨_, run_runCallback (returns callback user _ _), ?_, fun n => ?_, ?_⟩
    · rw [Debugger.called_performAll, counts, user]
      rfl
    · exact Debugger.hits_performAll _ _ n
    · exact Debugger.nothingElseEntered_performAll _ nothing
  · rename_i silent
    have quiet : (handler.enabled && !handler.skipExit && handler.onExitUser.isSome) = false := by
      cases user : handler.onExitUser with
      | none => simp
      | some callback =>
          cases counts : handler.enabled && !handler.skipExit with
          | false => simp
          | true => exact (silent callback user counts).elim
    exact ⟨s, rfl, by simp [quiet], fun n => rfl, nothing⟩

theorem nothingElseEntered_updateHandler (nothing : s.NothingElseEntered number)
    (f : SyscallHandler → SyscallHandler) :
    (s.updateHandler number f).NothingElseEntered number := by
  intro n handler found other
  rw [Debugger.updateHandler, Dict.get?_modify, if_neg other] at found
  exact nothing n handler found other

theorem exitHandler_spec (thread : ThreadContext) {handler : SyscallHandler}
    (found : s.handledSyscalls.get? number = some handler)
    (returns : ∀ callback, handler.onExitUser = some callback →
      ∀ threadId t, (u callback threadId t).2 = none)
    (nothing : s.NothingElseEntered number) :
    ∃ t, (exitHandler u thread number handler).run s = .ok () t ∧
      t.called = (if handler.enabled && !handler.skipExit && handler.onExitUser.isSome
        then [(.onExit number, thread.threadId)] else []) ++ s.called ∧
      (∀ n, t.hits n = if n = number ∧ (handler.enabled && !handler.skipExit) = true
        then some (handler.hitCount + 1) else s.hits n) ∧ t.NothingEntered := by
  let counted := s.updateHandler number fun h =>
    if h.enabled && !h.skipExit then { h with hitCount := h.hitCount + 1 } else h
  obtain ⟨t, returned, called, hits, nothing⟩ := callOnExit_spec (u := u) thread
    (s := counted) returns (nothingElseEntered_updateHandler nothing _)
  let left := t.updateHandler number ({ · with hasEntered := false, skipExit := false })
  let last := if left.stopsOn number then left.setResume false else left
  have handlers : last.handledSyscalls = left.handledSyscalls := by
    simp only [last]
    split <;> rfl
  refine ⟨last, ?_, ?_, fun n => ?_, fun n h present => ?_⟩
  · simp only [counted] at returned
    simp only [exitHandler, EStateM.run_bind, EStateM.run_modify, EStateM.run_get, returned, last,
      left]
    split <;> rfl
  · have same : last.called = t.called := by
      simp only [last]
      split <;> rfl
    rw [same, called]
    rfl
  · have reset : left.hits n = t.hits n := by
      simp only [left, Debugger.hits, Debugger.updateHandler, Dict.get?_modify]
      split
      · rename_i here
        rw [here, Option.map_map]
        rfl
      · rfl
    rw [Debugger.hits, handlers]
    refine reset.trans ((hits n).trans ?_)
    simp only [counted, Debugger.hits, Debugger.updateHandler, Dict.get?_modify]
    by_cases here : n = number
    · rw [if_pos here, here, found]
      simp only [Option.map_some, true_and]
      split <;> rfl
    · rw [if_neg here, if_neg fun both => here both.1]
  · rw [handlers] at present
    simp only [left, Debugger.updateHandler, Dict.get?_modify] at present
    split at present
    · obtain ⟨before, -, rfl⟩ := Option.map_eq_some_iff.mp present
      exact ⟨rfl, rfl⟩
    · rename_i other
      exact nothing n h present other

end Exit

/-! ### Both stops of a system call -/

section Pairs

variable {s : Debugger K} {thread : ThreadContext}

/-- The registers of a thread are read into its file. -/
def Debugger.withRegisters (s : Debugger K) (file : Ptr) (registers : UserRegs) : Debugger K :=
  { s with globalState := s.globalState.setFile file registers }

/-- The call of the callback on the exit stop, for a handler that is enabled and has one,
unless it is to be skipped. -/
def Debugger.exitCalls (s : Debugger K) (exit : SyscallStop) (skipped : Bool) :
    List (CallSite × Int) :=
  match s.handledSyscalls.get? exit.number with
  | none => []
  | some handler =>
      if handler.enabled && !skipped && handler.onExitUser.isSome
      then [(.onExit exit.number, exit.threadId)] else []

/-- The two stops of a system call are taken for what they are. -/
structure PairsUp (u : UserCode K) (s : Debugger K) (enter exit : SyscallStop)
    (skipped : Bool) : Prop where
  entering : ∃ calls, (s.syscallStop u enter).called = calls ++ s.called ∧
    ∀ call ∈ calls, ∃ number, call = (.onEnter number, enter.threadId)
  exiting : ((s.syscallStop u enter).syscallStop u exit).called =
    s.exitCalls exit skipped ++ (s.syscallStop u enter).called
  counted : ∀ number, ((s.syscallStop u enter).syscallStop u exit).hits number =
    (s.handledSyscalls.get? number).map fun handler => handler.hitCount +
      if number = exit.number ∧ (handler.enabled && !skipped) = true then 1 else 0
  forgotten : ((s.syscallStop u enter).syscallStop u exit).NothingEntered

/-- A handler that remembers no enter stop takes the stop for one. -/
theorem handleSyscall_of_outside {threadId : Int}
    (live : (s.getThreadById threadId).bind (s.threads[·]?) = some thread)
    (outside : ∀ handler, s.handledSyscalls.get? (s.syscallNumber thread) = some handler →
      handler.hasEntered = false) :
    stateAfter (handleSyscall u threadId) s =
      stateAfter (manageSyscallOnEnter u thread (s.handledSyscalls.keys.length + 1)
        (s.syscallNumber thread) [s.syscallNumber thread]) s := by
  cases found : s.handledSyscalls.get? (s.syscallNumber thread) with
  | none =>
      rw [handleSyscall_absent live found, manageSyscallOnEnter, stateAfter_get_bind, found]
      rfl
  | some handler => exact handleSyscall_outside live found (outside handler found)

theorem handler_of_closes {number : Nat} {recursive : Bool}
    (closes : ClosesLoop (HijacksSyscall u thread) (RewritesSyscall u thread) ⟨number, [], s⟩
      recursive) : ∃ handler, s.handledSyscalls.get? number = some handler := by
  obtain ⟨q, after, t, reached, rewrites, -⟩ := closes
  rcases reached.cases_head with rfl | ⟨q', follows, -⟩
  · obtain ⟨handler, callback, found, -⟩ := rewrites.called
    exact ⟨handler, found⟩
  · obtain ⟨handler, callback, found, -⟩ := follows.linked.1.called
    exact ⟨handler, found⟩

theorem threadId_of_live {threadId : Int}
    (live : (s.getThreadById threadId).bind (s.threads[·]?) = some thread) :
    thread.threadId = threadId := by
  rw [Debugger.getThreadById, ← List.find?_eq_bind_findIdx?_getElem?] at live
  have found := List.find?_some live
  simp only [Bool.and_eq_true, decide_eq_true_eq] at found
  exact found.1

theorem syscallStop_of_live {stop : SyscallStop}
    (live : (s.getThreadById stop.threadId).bind (s.threads[·]?) = some thread) :
    s.syscallStop u stop = stateAfter (handleSyscall u stop.threadId)
      (s.withRegisters thread.registerFile stop.registers) := by
  rw [Debugger.syscallStop, Debugger.liveFile, live]
  rfl

@[simp] theorem syscallNumber_withRegisters (s : Debugger K) (registers : UserRegs) :
    (s.withRegisters thread.registerFile registers).syscallNumber thread = registers .origRax := by
  simp [Debugger.withRegisters, Debugger.syscallNumber, Debugger.readReg, GlobalState.setFile]

/-- The enter stop of a system call, whether it is handled or not. -/
theorem syscallStop_enter (cooperative : Cooperative u s.handledSyscalls)
    (nothing : s.NothingEntered) {enter : SyscallStop}
    (live : (s.getThreadById enter.threadId).bind (s.threads[·]?) = some thread)
    (opens : ¬ (s.withRegisters thread.registerFile enter.registers).ClosesSyscallLoop u
      enter.threadId true) :
    ∃ skipped, Remembers (u := u) thread
        ⟨enter.number, [], s.withRegisters thread.registerFile enter.registers⟩
        (s.syscallStop u enter) skipped ∧
      (∃ calls, (s.syscallStop u enter).called = calls ++ s.called ∧
        ∀ call ∈ calls, ∃ number, call = (.onEnter number, enter.threadId)) := by
  let entering := s.withRegisters thread.registerFile enter.registers
  have shown : entering.syscallNumber thread = enter.number := syscallNumber_withRegisters s _
  have outside : ∀ handler, entering.handledSyscalls.get? (entering.syscallNumber thread) =
      some handler → handler.hasEntered = false := fun handler found => (nothing _ handler found).1
  have stopped : s.syscallStop u enter = stateAfter (manageSyscallOnEnter u thread
      (s.handledSyscalls.keys.length + 1) enter.number [enter.number]) entering := by
    rw [syscallStop_of_live live]
    have manages := handleSyscall_of_outside (u := u) (s := entering) live outside
    rw [shown] at manages
    exact manages
  have opens : ¬ ClosesLoop (HijacksSyscall u thread) (RewritesSyscall u thread)
      ⟨enter.number, [], entering⟩ true := by
    intro closes
    obtain ⟨handler, found⟩ := handler_of_closes closes
    rw [← shown] at found closes
    exact opens ⟨thread, handler, live, found, outside handler found, closes⟩
  obtain ⟨t, skipped, ran, remembers⟩ := manageSyscallOnEnter_remembers (s := entering)
    cooperative shown _ (Nat.lt_succ_self _) opens
  obtain ⟨turns, logged, -⟩ := manageSyscallOnEnter_logsOnce (u := u) thread
    enter.number entering (Nat.lt_succ_self _)
  refine ⟨skipped, ?_, turns.map (enterSite thread), ?_, ?_⟩
  · rw [stopped]
    exact (stateAfter_of_ok ran).symm ▸ remembers
  · rw [stopped]
    exact logged
  · intro call member
    obtain ⟨number, -, rfl⟩ := List.mem_map.mp member
    exact ⟨number, congrArg _ (threadId_of_live live)⟩

/-- A handler without a use for the phase ignores the stops of its system call. -/
theorem handleSyscall_untracked {threadId : Int} {handler : SyscallHandler}
    (live : (s.getThreadById threadId).bind (s.threads[·]?) = some thread)
    (found : s.handledSyscalls.get? (s.syscallNumber thread) = some handler)
    (outside : handler.hasEntered = false) (untracked : handler.tracksPhase = false) :
    stateAfter (handleSyscall u threadId) s = s := by
  simp only [SyscallHandler.tracksPhase, Bool.or_eq_false_iff] at untracked
  obtain ⟨⟨⟨disabled, enterPprint⟩, exitPprint⟩, onExit⟩ := untracked
  rw [handleSyscall_outside live found outside]
  simp only [stateAfter_get_bind, found, manageSyscallOnEnter, enterHandler_silent (.inr disabled),
    enterPprint, exitPprint, onExit, Bool.or_self, Bool.false_eq_true, if_false,
    stopsOn_of_found found, disabled, Bool.and_false, pure_bind, stateAfter_pure]

theorem SyscallHandler.enteredVia_fields (handler : SyscallHandler)
    (unskipped : handler.skipExit = false) (skipped : Bool) :
    (handler.enteredVia skipped).enabled = handler.enabled ∧
      (handler.enteredVia skipped).skipExit = skipped ∧
      (handler.enteredVia skipped).onExitUser = handler.onExitUser ∧
      (handler.enteredVia skipped).hitCount = handler.hitCount := by
  cases skipped with
  | true => exact ⟨rfl, rfl, rfl, rfl⟩
  | false => exact ⟨rfl, unskipped, rfl, rfl⟩

theorem SyscallHandler.untracked_of_not_entered {handler : SyscallHandler} {skipped : Bool}
    (outside : (handler.enteredVia skipped).hasEntered = false) :
    skipped = false ∧ handler.tracksPhase = false := by
  cases skipped with
  | true => cases outside
  | false => exact ⟨rfl, ((Bool.or_eq_false_iff ..).mp outside).2⟩

/-- An exit stop that nothing handles: the handler of the number, if there is one, is off. -/
theorem exit_ignored {t : Debugger K} {exit : SyscallStop} {skipped : Bool}
    (nothing : s.NothingEntered)
    (same : ∀ number, t.handledSyscalls.get? number = s.handledSyscalls.get? number)
    (off : ∀ handler, s.handledSyscalls.get? exit.number = some handler →
      handler.enabled = false) :
    t.called = s.exitCalls exit skipped ++ t.called ∧
      (∀ number, t.hits number =
        (s.handledSyscalls.get? number).map fun handler => handler.hitCount +
          if number = exit.number ∧ (handler.enabled && !skipped) = true then 1 else 0) ∧
      t.NothingEntered := by
  refine ⟨?_, fun number => ?_, fun number handler present => ?_⟩
  · cases found : s.handledSyscalls.get? exit.number with
    | none => simp only [Debugger.exitCalls, found, List.nil_append]
    | some handler =>
        simp only [Debugger.exitCalls, found, off handler found, Bool.false_and,
          Bool.false_eq_true, if_false, List.nil_append]
  · rw [Debugger.hits, same number]
    refine Option.map_congr fun handler found => ?_
    have quiet : ¬ (number = exit.number ∧ (handler.enabled && !skipped) = true) := by
      rintro ⟨rfl, on⟩
      rw [off handler found] at on
      cases on
    rw [if_neg quiet, Nat.add_zero]
  · exact nothing number handler ((same number).symm.trans present)

/-- What is remembered when a system call is exited. -/
theorem syscallStop_exit {mid : Debugger K} {exit : SyscallStop} {skipped : Bool}
    (cooperative : Cooperative u s.handledSyscalls) (nothing : s.NothingEntered)
    (live : (mid.getThreadById exit.threadId).bind (mid.threads[·]?) = some thread)
    (told : ∀ number, mid.handledSyscalls.get? number = if number = exit.number
      then (s.handledSyscalls.get? number).map (·.enteredVia skipped)
      else s.handledSyscalls.get? number) :
    (mid.syscallStop u exit).called = s.exitCalls exit skipped ++ mid.called ∧
      (∀ number, (mid.syscallStop u exit).hits number =
        (s.handledSyscalls.get? number).map fun handler => handler.hitCount +
          if number = exit.number ∧ (handler.enabled && !skipped) = true then 1 else 0) ∧
      (mid.syscallStop u exit).NothingEntered := by
  let exiting := mid.withRegisters thread.registerFile exit.registers
  have shown : exiting.syscallNumber thread = exit.number := syscallNumber_withRegisters mid _
  have here : exiting.handledSyscalls.get? exit.number =
      (s.handledSyscalls.get? exit.number).map (·.enteredVia skipped) :=
    (told exit.number).trans (if_pos rfl)
  have elsewhere (n : Nat) (other : n ≠ exit.number) :
      exiting.handledSyscalls.get? n = s.handledSyscalls.get? n :=
    (told n).trans (if_neg other)
  -- where the stop changes no handler, all of them are as before the system call
  have unchanged (own : exiting.handledSyscalls.get? exit.number =
      s.handledSyscalls.get? exit.number) (n : Nat) :
      exiting.handledSyscalls.get? n = s.handledSyscalls.get? n := by
    by_cases last : n = exit.number
    · rw [last, own]
    · exact elsewhere n last
  have live' : (exiting.getThreadById exit.threadId).bind (exiting.threads[·]?) = some thread :=
    live
  rw [syscallStop_of_live live]
  cases found : s.handledSyscalls.get? exit.number with
  | none =>
      rw [found] at here
      have ignored : stateAfter (handleSyscall u exit.threadId) exiting = exiting :=
        handleSyscall_absent live' (shown.symm ▸ here)
      exact ignored.symm ▸ exit_ignored nothing (unchanged (here.trans found.symm))
        fun handler there => by rw [found] at there; cases there
  | some handler =>
      rw [found, Option.map_some] at here
      obtain ⟨outside, unskipped⟩ := nothing exit.number handler found
      cases entered : (handler.enteredVia skipped).hasEntered with
      | true =>
          have others : exiting.NothingElseEntered exit.number := fun n handler present other =>
            nothing n handler ((elsewhere n other).symm.trans present)
          obtain ⟨enabled, skip, user, count⟩ := handler.enteredVia_fields unskipped skipped
          obtain ⟨t, ran, called, hits, forgotten⟩ := exitHandler_spec thread here
            (fun callback set => cooperative.exitReturns found (user ▸ set)) others
          have same : stateAfter (handleSyscall u exit.threadId) exiting = t := by
            rw [handleSyscall_entered live' (shown.symm ▸ here) entered, shown]
            exact stateAfter_of_ok ran
          rw [enabled, skip, user, threadId_of_live live] at called
          rw [enabled, skip, count] at hits
          refine same.symm ▸ ⟨?_, fun n => ?_, forgotten⟩
          · simp only [Debugger.exitCalls, found]
            exact called
          · rw [hits n]
            by_cases last : n = exit.number
            · simp only [last, found, true_and, Option.map_some, Debugger.hits, here, count]
              split <;> rfl
            · rw [if_neg fun both => last both.1, Debugger.hits, elsewhere n last]
              simp [last]
      | false =>
          obtain ⟨rfl, untracked⟩ := SyscallHandler.untracked_of_not_entered entered
          have kept : handler.enteredVia false = handler := by
            simp [SyscallHandler.enteredVia, SyscallHandler.entered, untracked]
          rw [kept] at here
          have ignored : stateAfter (handleSyscall u exit.threadId) exiting = exiting :=
            handleSyscall_untracked live' (shown.symm ▸ here) outside untracked
          have off : handler.enabled = false := by
            simp only [SyscallHandler.tracksPhase, Bool.or_eq_false_iff] at untracked
            exact untracked.1.1.1
          exact ignored.symm ▸ exit_ignored nothing (unchanged (here.trans found.symm))
            fun other there => by rw [found] at there; cases there; exact off

theorem syscallStop_identities_same (stop : SyscallStop) :
    (s.syscallStop u stop).identities = s.identities := by
  have leaves : Leaves Debugger.identities (handleSyscall u stop.threadId) := by
    apply handleSyscall_keeps
    · exact fun _ _ => Keeps.modify fun _ => rfl
    · exact Keeps.modify fun _ => rfl
    · intro site callback threadId s
      exact runCallback_touches site callback threadId s .identities (by decide)
  unfold Debugger.syscallStop
  split <;> exact leaves _

end Pairs

/-- A system call of one thread on which no loop closes: no callback on enter stops is called
when it is exited, the callback on exit stops and the count are those of the handler of the
number it is made with, unless that was reached from a handler that is not recursive, and
nothing is remembered afterwards. -/
theorem hijacked_syscalls_pair_up {s : Debugger K} {thread : ThreadContext}
    {enter exit : SyscallStop} (cooperative : Cooperative u s.handledSyscalls)
    (nothing : s.NothingEntered)
    (live : (s.getThreadById enter.threadId).bind (s.threads[·]?) = some thread)
    (own : exit.threadId = enter.threadId)
    (left : exit.number = (s.syscallStop u enter).syscallNumber thread)
    (opens : ¬ (s.withRegisters thread.registerFile enter.registers).ClosesSyscallLoop u
      enter.threadId true) :
    ∃ skipped, (skipped = true ↔ Skipped u thread
        ⟨enter.number, [], s.withRegisters thread.registerFile enter.registers⟩ exit.number) ∧
      PairsUp u s enter exit skipped := by
  obtain ⟨skipped, remembers, entering⟩ := syscallStop_enter cooperative nothing live opens
  have file : (s.syscallStop u enter).liveFile exit.threadId = some thread.registerFile := by
    rw [Debugger.liveFile_of_identities (syscallStop_identities_same enter), own,
      Debugger.liveFile, live]
    rfl
  obtain ⟨thread', live', -, -⟩ := liveFile_eq_some.mp file
  obtain ⟨exiting, counted, forgotten⟩ := syscallStop_exit cooperative nothing live' (by
    rw [left]
    exact remembers.told)
  refine ⟨skipped, ?_, entering, exiting, counted, forgotten⟩
  rw [left]
  exact remembers.iff_skipped

/-- Each function replaces the number of the system call by its own. -/
def redirect : UserCode K := fun callback threadId s =>
  ((s.liveFile threadId).toList.map fun file => .setRegister file .origRax callback, none)

theorem redirect_cooperative (handlers : Dict Nat SyscallHandler) :
    Cooperative (redirect : UserCode K) handlers := by
  constructor
  · intros
    rfl
  · intro _ _ callback _ _ threadId t
    rw [redirect]
    cases t.liveFile threadId <;> rfl
  · intros
    rfl

/-- System call 1 is replaced by 2, whose handler has a callback on exit stops. -/
theorem replaced_syscall_pairs_up :
    ∃ s, (debugging scripted redirect).run (.initial atRest)
        [.registerNewThread 1, .handleSyscall 1 (some 2) none true,
          .handleSyscall 2 none (some 2) false] = some s ∧
      ∃ skipped, PairsUp redirect s (stopAt 1 1) (stopAt 1 2) skipped := by
  refine ⟨_, rfl, ?_⟩
  apply Exists.imp fun _ => And.right
  apply hijacked_syscalls_pair_up (redirect_cooperative _)
  · exact nothingEntered_iff.mpr (by decide)
  · exact (rfl : _ = some _)
  · rfl
  · rfl
  · intro closes
    obtain ⟨t, raised⟩ := (handleSyscall_detectsLoops _ _).complete closes
    cases raised

/-- System calls 1 and 2 are replaced by each other: the loop is found on the enter stop,
and the exit stop is taken for another one. -/
theorem looping_syscall_inverted :
    ∃ s, (debugging scripted redirect).run (.initial atRest)
        [.registerNewThread 1, .handleSyscall 1 (some 2) none true,
          .handleSyscall 2 (some 1) none true] = some s ∧
      Cooperative (redirect : UserCode Script) s.handledSyscalls ∧ s.NothingEntered ∧
      (∃ thread, (s.getThreadById 1).bind (s.threads[·]?) = some thread ∧
        (s.syscallStop redirect (stopAt 1 1)).syscallNumber thread = 1) ∧
      ∀ skipped, ¬ PairsUp redirect s (stopAt 1 1) (stopAt 1 1) skipped := by
  refine ⟨_, rfl, redirect_cooperative _, nothingEntered_iff.mpr (by decide), ⟨_, rfl, rfl⟩, ?_⟩
  intro skipped pairs
  cases skipped <;> cases pairs.exiting

end Libdebug.Ptrace
