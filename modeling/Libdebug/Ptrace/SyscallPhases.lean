import Libdebug.Ptrace.Commands

/-!
Whether a system call is being entered or exited.

The kernel does not say; `handleSyscall` goes by the flag `hasEntered` of the handler,
which all threads share. An interleaving of the stops of several threads is compared
with the runs of each thread by itself: every stop is treated as it would be there if
and only if no thread enters a handled system call while another one is inside it, or
has died inside it. The functions of the user return, hijack nothing, and leave the
handlers alone.
-/

namespace Libdebug.Ptrace

open Libdebug.Foundation Libdebug.Cffi

variable {K : Type} {u : UserCode K}

/-- Functions of the user that return, keep the number of every system call, and change
no handler. -/
structure Unobtrusive (u : UserCode K) : Prop where
  returns : ∀ callback threadId s, (u callback threadId s).2 = none
  noHijack : ∀ callback threadId (s : Debugger K) thread,
    (s.performAll (u callback threadId s).1).syscallNumber thread = s.syscallNumber thread
  sameHandlers : ∀ callback threadId (s : Debugger K),
    (s.performAll (u callback threadId s).1).handledSyscalls = s.handledSyscalls

/-- Whether the handler has a use for the phase of its system call. -/
def SyscallHandler.tracksPhase (handler : SyscallHandler) : Bool :=
  handler.enabled || handler.onEnterPprint || handler.onExitPprint || handler.onExitUser.isSome

/-- The handler after an enter stop. -/
def SyscallHandler.entered (handler : SyscallHandler) : SyscallHandler :=
  { handler with hasEntered := handler.hasEntered || handler.tracksPhase }

/-- The handler after an exit stop. -/
def SyscallHandler.exited (handler : SyscallHandler) : SyscallHandler :=
  { handler with
    hitCount := if handler.enabled && !handler.skipExit then handler.hitCount + 1
      else handler.hitCount
    hasEntered := false
    skipExit := false }

/-! ### One stop -/

/-- What a stop changes: one handler, and calls from one place at most. -/
structure Handled (s next : Debugger K) (number : Nat) (handler : SyscallHandler)
    (call : Option (CallSite × Int)) : Prop where
  handlers : ∀ n, next.handledSyscalls.get? n =
    if n = number then some handler else s.handledSyscalls.get? n
  calls : ∃ calls, next.called = calls ++ s.called ∧ ∀ c ∈ calls, call = some c
  identities : next.identities = s.identities

section OneStop

variable {s t next : Debugger K} {number : Nat} {handler first second : SyscallHandler}
  {thread : ThreadContext} {call : Option (CallSite × Int)}

theorem Handled.refl (found : s.handledSyscalls.get? number = some handler) :
    Handled s s number handler call where
  handlers n := by
    split
    · rename_i same
      rw [same, found]
    · rfl
  calls := ⟨[], rfl, by simp⟩
  identities := rfl

theorem Handled.trans (one : Handled s t number first call)
    (two : Handled t next number second call) : Handled s next number second call where
  handlers n := by
    rw [two.handlers, one.handlers]
    split <;> rfl
  calls := by
    obtain ⟨before, eqBefore, onlyBefore⟩ := one.calls
    obtain ⟨after, eqAfter, onlyAfter⟩ := two.calls
    refine ⟨after ++ before, by rw [eqAfter, eqBefore, List.append_assoc], fun c member => ?_⟩
    exact (List.mem_append.mp member).elim (onlyAfter c) (onlyBefore c)
  identities := two.identities.trans one.identities

theorem Handled.found (handled : Handled s next number handler call) :
    next.handledSyscalls.get? number = some handler := by
  rw [handled.handlers, if_pos rfl]

theorem handled_updateHandler (found : s.handledSyscalls.get? number = some handler)
    (f : SyscallHandler → SyscallHandler) :
    Handled s (s.updateHandler number f) number (f handler) call where
  handlers n := by simp [Debugger.updateHandler, Dict.get?_modify, found]
  calls := ⟨[], rfl, by simp⟩
  identities := rfl

theorem handled_setResume (found : s.handledSyscalls.get? number = some handler) (resume : Bool) :
    Handled s (s.setResume resume) number handler call where
  handlers := (Handled.refl found : Handled s s number handler call).handlers
  calls := ⟨[], rfl, by simp⟩
  identities := rfl

/-- A function of the user that is called for the stop. -/
theorem runCallback_handled (calm : Unobtrusive u) (site : CallSite) (callback : Callback)
    (threadId : Int) (found : s.handledSyscalls.get? number = some handler) :
    ∃ next, (runCallback u site callback threadId).run s = .ok () next ∧
      Handled s next number handler (some (site, threadId)) ∧
      ∀ thread, next.syscallNumber thread = s.syscallNumber thread := by
  refine ⟨_, run_runCallback (calm.returns _ _ _), ⟨fun n => ?_, ?_, ?_⟩,
    fun thread => calm.noHijack _ _ (s.noteCall (site, threadId)) thread⟩
  · rw [calm.sameHandlers]
    exact (Handled.refl found : Handled s s number handler none).handlers n
  · exact ⟨[(site, threadId)], Debugger.called_performAll _ _, by simp⟩
  · exact Debugger.identities_performAll _ _

theorem setHasEntered_handled (found : s.handledSyscalls.get? number = some handler) :
    ∃ next, (setHasEntered number : Py K Unit).run s = .ok () next ∧
      Handled s next number { handler with hasEntered := true } call :=
  ⟨_, rfl, handled_updateHandler found _⟩

/-- The flag that the branches on the callbacks of the handler leave. -/
def SyscallHandler.marked (handler : SyscallHandler) : SyscallHandler :=
  { handler with
    hasEntered := handler.hasEntered || (handler.onEnterUser.isSome && handler.enabled ||
      handler.onEnterPprint || handler.onExitPprint || handler.onExitUser.isSome) }

theorem enterHandler_handled (calm : Unobtrusive u)
    (found : s.handledSyscalls.get? number = some handler)
    (shown : s.syscallNumber thread = number)
    (allowed : handler.enabled = true → call = some (.onEnter number, thread.threadId))
    (hijackedSet : List Nat) (recurse : Nat → List Nat → Py K Unit) :
    ∃ next, (enterHandler u thread number handler hijackedSet recurse).run s = .ok () next ∧
      Handled s next number handler.marked call := by
  unfold enterHandler
  split
  · rename_i callback user enabled
    obtain ⟨t, called, one, same⟩ :=
      runCallback_handled calm (.onEnter number) callback thread.threadId found
    obtain ⟨next, set, two⟩ := setHasEntered_handled one.found
    refine ⟨next, ?_, ?_⟩
    · simp only [callOnEnter, EStateM.run_bind, called, EStateM.run_get, same, shown, if_true]
      exact set
    · have marked : handler.marked = { handler with hasEntered := true } := by
        simp [SyscallHandler.marked, user, enabled]
      rw [marked, allowed enabled]
      exact one.trans two
  · rename_i silent
    have unmarked : (handler.onEnterUser.isSome && handler.enabled) = false := by
      cases user : handler.onEnterUser with
      | none => rfl
      | some callback => simpa using fun enabled => silent callback user enabled
    split
    · rename_i printed
      obtain ⟨next, set, handled⟩ := setHasEntered_handled found
      refine ⟨next, set, ?_⟩
      have marked : handler.marked = { handler with hasEntered := true } := by
        simp only [SyscallHandler.marked, unmarked, Bool.false_or, printed, Bool.or_true]
      exact marked ▸ handled
    · rename_i printed
      refine ⟨s, rfl, ?_⟩
      have marked : handler.marked = handler := by
        simp only [SyscallHandler.marked, unmarked, Bool.false_or,
          Bool.eq_false_iff.mpr printed, Bool.or_false]
      exact marked.symm ▸ Handled.refl found

theorem stopsOn_of_found (found : s.handledSyscalls.get? number = some handler) :
    s.stopsOn number =
      (handler.onEnterUser = none && handler.onExitUser = none && handler.enabled) := by
  simp [Debugger.stopsOn, found]

/-- An enter stop: the callback for enter stops, and the flag. -/
theorem manageSyscallOnEnter_handled (calm : Unobtrusive u)
    (found : s.handledSyscalls.get? number = some handler)
    (shown : s.syscallNumber thread = number)
    (allowed : handler.enabled = true → call = some (.onEnter number, thread.threadId))
    (fuel : Nat) (hijackedSet : List Nat) :
    Handled s (stateAfter (manageSyscallOnEnter u thread (fuel + 1) number hijackedSet) s) number
      handler.entered call := by
  obtain ⟨t, ran, handled⟩ := enterHandler_handled calm found shown allowed hijackedSet
    (manageSyscallOnEnter u thread fuel)
  simp only [manageSyscallOnEnter, stateAfter_get_bind, found]
  rw [stateAfter_bind_ok ran]
  simp only [stateAfter_get_bind, stopsOn_of_found handled.found]
  split
  · rename_i stops
    have tracked : handler.tracksPhase = true := by
      have enabled : handler.enabled = true := ((Bool.and_eq_true _ _).mp stops).2
      simp [SyscallHandler.tracksPhase, enabled]
    have entered : handler.entered = { handler.marked with hasEntered := true } := by
      simp [SyscallHandler.entered, SyscallHandler.marked, tracked]
    rw [entered]
    have set : Handled t _ number _ call := handled_updateHandler handled.found
      ({ · with hasEntered := true })
    exact (handled.trans set).trans (handled_setResume set.found false)
  · rename_i stops
    have entered : handler.entered = handler.marked := by
      simp only [SyscallHandler.marked] at stops
      simp only [SyscallHandler.entered, SyscallHandler.marked, SyscallHandler.tracksPhase]
      cases enter : handler.onEnterUser <;> cases exit : handler.onExitUser <;>
        cases enabled : handler.enabled <;> simp_all
    exact entered ▸ handled

theorem callOnExit_handled (calm : Unobtrusive u) (given : SyscallHandler)
    (found : s.handledSyscalls.get? number = some handler)
    (allowed : given.enabled = true → call = some (.onExit number, thread.threadId)) :
    ∃ next, (callOnExit u thread number given).run s = .ok () next ∧
      Handled s next number handler call := by
  unfold callOnExit
  split
  · rename_i callback user enabled
    obtain ⟨next, called, handled, -⟩ :=
      runCallback_handled calm (.onExit number) callback thread.threadId found
    rw [allowed ((Bool.and_eq_true _ _).mp enabled).1]
    exact ⟨next, called, handled⟩
  · exact ⟨s, rfl, .refl found⟩

/-- An exit stop: the callback for exit stops, the count, and the flag. -/
theorem exitHandler_handled (calm : Unobtrusive u)
    (found : s.handledSyscalls.get? number = some handler)
    (allowed : handler.enabled = true → call = some (.onExit number, thread.threadId)) :
    Handled s (stateAfter (exitHandler u thread number handler) s) number handler.exited call := by
  simp only [exitHandler, stateAfter_modify_bind]
  have counted : Handled s _ number _ call := handled_updateHandler found fun h =>
    if h.enabled && !h.skipExit then { h with hitCount := h.hitCount + 1 } else h
  obtain ⟨t, ran, called⟩ := callOnExit_handled calm handler counted.found allowed
  rw [stateAfter_bind_ok ran]
  simp only [stateAfter_modify_bind, stateAfter_get_bind]
  have left : Handled t _ number _ call := handled_updateHandler called.found
    ({ · with hasEntered := false, skipExit := false })
  have exited := (counted.trans called).trans left
  have value : handler.exited =
      { (if handler.enabled && !handler.skipExit
          then { handler with hitCount := handler.hitCount + 1 } else handler) with
        hasEntered := false, skipExit := false } := by
    unfold SyscallHandler.exited
    split <;> rfl
  rw [← value] at exited
  split
  · exact exited.trans (handled_setResume exited.found false)
  · exact exited

/-- The handler after a stop, by the branch that `handleSyscall` takes. -/
def SyscallHandler.after (handler : SyscallHandler) : SyscallHandler :=
  if handler.hasEntered then handler.exited else handler.entered

/-- The call of a function of the user that the branch may make. -/
def SyscallHandler.mayCall (handler : SyscallHandler) (number : Nat) (threadId : Int) :
    Option (CallSite × Int) :=
  if handler.enabled then
    some (if handler.hasEntered then .onExit number else .onEnter number, threadId)
  else none

variable {threadId : Int} {file : Ptr}

theorem liveFile_eq_some : s.liveFile threadId = some file ↔
    ∃ thread, (s.getThreadById threadId).bind (s.threads[·]?) = some thread ∧
      thread.threadId = threadId ∧ thread.registerFile = file := by
  rw [Debugger.liveFile, Option.map_eq_some_iff]
  refine exists_congr fun thread => and_congr_right fun found => ?_
  rw [Debugger.getThreadById, ← List.find?_eq_bind_findIdx?_getElem?] at found
  have live := List.find?_some found
  simp only [Bool.and_eq_true, decide_eq_true_eq] at live
  exact (and_iff_right live.1).symm

section Branches

variable {thread : ThreadContext}
  (live : (s.getThreadById threadId).bind (s.threads[·]?) = some thread)

include live

/-- A system call that is not handled changes nothing. -/
theorem handleSyscall_absent
    (absent : s.handledSyscalls.get? (s.syscallNumber thread) = none) :
    stateAfter (handleSyscall u threadId) s = s := by
  rw [handleSyscall, stateAfter_get_bind, live]
  dsimp only
  rw [absent]
  rfl

/-- After an enter stop, the stop is taken for the exit stop. -/
theorem handleSyscall_entered
    (found : s.handledSyscalls.get? (s.syscallNumber thread) = some handler)
    (entered : handler.hasEntered = true) :
    stateAfter (handleSyscall u threadId) s =
      stateAfter (exitHandler u thread (s.syscallNumber thread) handler) s := by
  rw [handleSyscall, stateAfter_get_bind, live]
  dsimp only
  rw [found]
  dsimp only
  rw [if_pos entered]

/-- Otherwise it is taken for an enter stop. -/
theorem handleSyscall_outside
    (found : s.handledSyscalls.get? (s.syscallNumber thread) = some handler)
    (outside : handler.hasEntered = false) :
    stateAfter (handleSyscall u threadId) s =
      stateAfter (manageSyscallOnEnter u thread (s.handledSyscalls.keys.length + 1)
        (s.syscallNumber thread) [s.syscallNumber thread]) s := by
  rw [handleSyscall, stateAfter_get_bind, live]
  dsimp only
  rw [found]
  dsimp only
  rw [if_neg (Bool.eq_false_iff.mp outside)]

end Branches

theorem handleSyscall_handled (calm : Unobtrusive u)
    (live : s.liveFile threadId = some file) (shown : s.globalState.files file .origRax = number)
    (found : s.handledSyscalls.get? number = some handler) :
    Handled s (stateAfter (handleSyscall u threadId) s) number handler.after
      (handler.mayCall number threadId) := by
  obtain ⟨thread, context, rfl, rfl⟩ := liveFile_eq_some.mp live
  obtain rfl : s.syscallNumber thread = number := shown
  cases entered : handler.hasEntered with
  | true =>
      rw [handleSyscall_entered context found entered]
      simp only [SyscallHandler.after, SyscallHandler.mayCall, entered, if_true]
      exact exitHandler_handled calm found fun enabled => by simp [enabled]
  | false =>
      rw [handleSyscall_outside context found entered]
      simp only [SyscallHandler.after, SyscallHandler.mayCall, entered, Bool.false_eq_true,
        if_false]
      exact manageSyscallOnEnter_handled calm found rfl (fun enabled => by simp [enabled]) _ _

theorem handleSyscall_unhandled (live : s.liveFile threadId = some file)
    (shown : s.globalState.files file .origRax = number)
    (absent : s.handledSyscalls.get? number = none) :
    stateAfter (handleSyscall u threadId) s = s := by
  obtain ⟨thread, context, -, rfl⟩ := liveFile_eq_some.mp live
  obtain rfl : s.syscallNumber thread = number := shown
  exact handleSyscall_absent context absent

end OneStop

/-! ### Interleaved stops -/

/-- A thread stops at a system call. -/
structure SyscallStop where
  threadId : Int
  registers : UserRegs

/-- The number of the system call. -/
def SyscallStop.number (stop : SyscallStop) : Nat := stop.registers .origRax

/-- The registers of the thread are read, then the stop is handled. -/
def Debugger.syscallStop (u : UserCode K) (s : Debugger K) (stop : SyscallStop) : Debugger K :=
  match s.liveFile stop.threadId with
  | none => stateAfter (handleSyscall u stop.threadId) s
  | some file =>
      stateAfter (handleSyscall u stop.threadId)
        { s with globalState := s.globalState.setFile file stop.registers }

/-- The stops of several threads, seen by one debugger, and beside it for each thread a
debugger that sees the stops of this thread only. The system call a thread is inside is
known to the kernel alone. -/
structure Interleaving (K : Type) where
  debugger : Debugger K
  alone : Int → Debugger K
  inside : Int → Option Nat

def Interleaving.start (s : Debugger K) : Interleaving K := ⟨s, fun _ => s, fun _ => none⟩

/-- The stops of one thread alternate: it enters a system call, then exits the same. -/
def Interleaving.step (u : UserCode K) (i : Interleaving K) (stop : SyscallStop) :
    Option (Interleaving K) :=
  if (i.debugger.liveFile stop.threadId).isSome ∧
      (i.inside stop.threadId = none ∨ i.inside stop.threadId = some stop.number) then
    some
      { debugger := i.debugger.syscallStop u stop
        alone := Function.update i.alone stop.threadId
          ((i.alone stop.threadId).syscallStop u stop)
        inside := Function.update i.inside stop.threadId
          (if i.inside stop.threadId = none then some stop.number else none) }
  else none

def interleaving (u : UserCode K) : Machine (Interleaving K) SyscallStop := ⟨Interleaving.step u⟩

/-- The stop is taken for an exit. -/
def Debugger.takesForExit (s : Debugger K) (stop : SyscallStop) : Prop :=
  ∃ handler, s.handledSyscalls.get? stop.number = some handler ∧ handler.hasEntered = true

/-- From where functions of the user ought to be called. -/
def Interleaving.site (i : Interleaving K) (stop : SyscallStop) : CallSite :=
  if i.inside stop.threadId = none then .onEnter stop.number else .onExit stop.number

/-- A stop is treated as it would be if its thread were the only one: callbacks for
enter stops run at enter stops and those for exit stops at exit stops, and the hits of
an enabled handler grow by one where a system call is completed. -/
structure RightlyTreated (u : UserCode K) (i : Interleaving K) (stop : SyscallStop) : Prop where
  asAlone : i.debugger.takesForExit stop ↔ (i.alone stop.threadId).takesForExit stop
  calls : ∃ calls, (i.debugger.syscallStop u stop).called = calls ++ i.debugger.called ∧
    ∀ call ∈ calls, call = (i.site stop, stop.threadId)
  hits : ∀ number handler, i.debugger.handledSyscalls.get? number = some handler →
    ((i.debugger.syscallStop u stop).handledSyscalls.get? number).map (·.hitCount) =
      some (handler.hitCount +
        if i.inside stop.threadId = some number ∧ handler.enabled = true then 1 else 0)

/-- Whether an enter stop of the system call is remembered for the exit stop. -/
def Debugger.tracksPhase (s : Debugger K) (number : Nat) : Bool :=
  (s.handledSyscalls.get? number).any (·.tracksPhase)

/-- No thread enters a handled system call while another one is inside it. -/
def NoOverlap (i : Interleaving K) (stop : SyscallStop) : Prop :=
  i.inside stop.threadId = none → i.debugger.tracksPhase stop.number = true →
    ∀ other, i.inside other ≠ some stop.number

/-- No handler remembers an enter stop. -/
def Debugger.NothingEntered (s : Debugger K) : Prop :=
  ∀ number handler, s.handledSyscalls.get? number = some handler →
    handler.hasEntered = false ∧ handler.skipExit = false

/-! ### The flag and the system calls that threads are inside -/

section Invariant

variable {s : Debugger K} {stop : SyscallStop} {handler : SyscallHandler} {number : Nat}
  {i : Interleaving K}

theorem syscallStop_handled (calm : Unobtrusive u) (live : (s.liveFile stop.threadId).isSome)
    (found : s.handledSyscalls.get? stop.number = some handler) :
    Handled s (s.syscallStop u stop) stop.number handler.after
      (handler.mayCall stop.number stop.threadId) := by
  obtain ⟨file, live⟩ := Option.isSome_iff_exists.mp live
  simp only [Debugger.syscallStop, live]
  have shown : (s.globalState.setFile file stop.registers).files file .origRax = stop.number := by
    simp [GlobalState.setFile, SyscallStop.number]
  obtain ⟨handlers, calls, identities⟩ := handleSyscall_handled
    (s := { s with globalState := s.globalState.setFile file stop.registers }) calm live shown found
  exact ⟨handlers, calls, identities⟩

theorem syscallStop_unhandled (live : (s.liveFile stop.threadId).isSome)
    (absent : s.handledSyscalls.get? stop.number = none) :
    ∃ g, s.syscallStop u stop = { s with globalState := g } := by
  obtain ⟨file, live⟩ := Option.isSome_iff_exists.mp live
  simp only [Debugger.syscallStop, live]
  have shown : (s.globalState.setFile file stop.registers).files file .origRax = stop.number := by
    simp [GlobalState.setFile, SyscallStop.number]
  exact ⟨_, handleSyscall_unhandled
    (s := { s with globalState := s.globalState.setFile file stop.registers }) live shown absent⟩

theorem syscallStop_handlers (calm : Unobtrusive u) (live : (s.liveFile stop.threadId).isSome)
    (number : Nat) : (s.syscallStop u stop).handledSyscalls.get? number =
      if number = stop.number then (s.handledSyscalls.get? number).map (·.after)
      else s.handledSyscalls.get? number := by
  rcases found : s.handledSyscalls.get? stop.number with _ | handler
  · obtain ⟨g, after⟩ := syscallStop_unhandled (u := u) live found
    rw [after]
    split
    · rename_i same
      simp [same, found]
    · rfl
  · rw [(syscallStop_handled calm live found).handlers]
    split
    · rename_i same
      rw [same, found, Option.map_some]
    · rfl

theorem syscallStop_identities (calm : Unobtrusive u)
    (live : (s.liveFile stop.threadId).isSome) :
    (s.syscallStop u stop).identities = s.identities := by
  rcases found : s.handledSyscalls.get? stop.number with _ | handler
  · obtain ⟨g, after⟩ := syscallStop_unhandled (u := u) live found
    rw [after]
    rfl
  · exact (syscallStop_handled calm live found).identities

/-- The flag of a handler is set while some thread is inside its system call. -/
def Phases (s : Debugger K) (entered : Nat → Prop) : Prop :=
  ∀ number handler, s.handledSyscalls.get? number = some handler →
    handler.skipExit = false ∧
      (handler.hasEntered = true ↔ handler.tracksPhase = true ∧ entered number)

@[simp] theorem tracksPhase_after (handler : SyscallHandler) :
    handler.after.tracksPhase = handler.tracksPhase := by
  unfold SyscallHandler.after
  split <;> rfl

theorem tracksPhase_of_found (found : s.handledSyscalls.get? number = some handler) :
    s.tracksPhase number = handler.tracksPhase := by
  simp [Debugger.tracksPhase, found]

theorem tracksPhase_syscallStop (calm : Unobtrusive u) (live : (s.liveFile stop.threadId).isSome)
    (number : Nat) : (s.syscallStop u stop).tracksPhase number = s.tracksPhase number := by
  rw [Debugger.tracksPhase, syscallStop_handlers calm live]
  split
  · simp [Debugger.tracksPhase, Option.any_map]
  · rfl

theorem Phases.takesForExit {entered : Nat → Prop} (phases : Phases s entered) :
    s.takesForExit stop ↔ s.tracksPhase stop.number = true ∧ entered stop.number := by
  constructor
  · rintro ⟨handler, found, flag⟩
    rw [tracksPhase_of_found found]
    exact (phases _ _ found).2.mp flag
  · rintro ⟨tracked, inside⟩
    obtain ⟨handler, found, tracks⟩ := (Option.any_eq_true _ _).mp tracked
    exact ⟨handler, found, (phases _ _ found).2.mpr ⟨tracks, inside⟩⟩

/-- A stop toggles the flag of the handler. -/
theorem Phases.toggle {entered entered' : Nat → Prop} (calm : Unobtrusive u)
    (live : (s.liveFile stop.threadId).isSome) (phases : Phases s entered)
    (others : ∀ number, number ≠ stop.number → (entered' number ↔ entered number))
    (toggled : s.tracksPhase stop.number = true → (entered' stop.number ↔ ¬ entered stop.number)) :
    Phases (s.syscallStop u stop) entered' := by
  intro number handler found
  rw [syscallStop_handlers calm live] at found
  split at found
  · rename_i same
    subst same
    obtain ⟨before, foundBefore, rfl⟩ := Option.map_eq_some_iff.mp found
    obtain ⟨noSkip, flag⟩ := phases _ _ foundBefore
    rw [tracksPhase_of_found foundBefore] at toggled
    rw [tracksPhase_after]
    unfold SyscallHandler.after
    split
    · rename_i entered
      refine ⟨rfl, ?_⟩
      obtain ⟨tracked, inside⟩ := flag.mp entered
      simp [SyscallHandler.exited, tracked, toggled tracked, inside]
    · rename_i outside
      refine ⟨noSkip, ?_⟩
      simp only [SyscallHandler.entered, Bool.eq_false_iff.mpr outside, Bool.false_or]
      constructor
      · intro tracked
        exact ⟨tracked, (toggled tracked).mpr fun inside => outside (flag.mpr ⟨tracked, inside⟩)⟩
      · exact And.left
  · rename_i other
    rw [others number other]
    exact phases number handler found

structure InPhase (i : Interleaving K) : Prop where
  shared : Phases i.debugger fun number => ∃ thread, i.inside thread = some number
  own : ∀ thread, Phases (i.alone thread) fun number => i.inside thread = some number
  /-- one thread at most is inside a handled system call -/
  exclusive : ∀ number, i.debugger.tracksPhase number = true →
    ∀ thread other, i.inside thread = some number → i.inside other = some number → thread = other
  sameHandlers : ∀ thread number,
    (i.alone thread).tracksPhase number = i.debugger.tracksPhase number
  sameThreads : ∀ thread, (i.alone thread).identities = i.debugger.identities

theorem inPhase_start (nothing : s.NothingEntered) : InPhase (.start s) where
  shared number handler found := by
    obtain ⟨outside, noSkip⟩ := nothing number handler found
    simp [noSkip, outside, Interleaving.start]
  own thread number handler found := by
    obtain ⟨outside, noSkip⟩ := nothing number handler found
    simp [noSkip, outside, Interleaving.start]
  exclusive := by simp [Interleaving.start]
  sameHandlers _ _ := rfl
  sameThreads _ := rfl

theorem InPhase.alone_live (phase : InPhase i) (thread threadId : Int) :
    (i.alone thread).liveFile threadId = i.debugger.liveFile threadId :=
  Debugger.liveFile_of_identities (phase.sameThreads thread) threadId

/-! ### One step of an interleaving -/

variable {next : Interleaving K}

/-- A thread enters the system call, or it exits the one it is inside. -/
theorem step_cases (stepped : i.step u stop = some next) :
    (i.debugger.liveFile stop.threadId).isSome ∧
      next.debugger = i.debugger.syscallStop u stop ∧
      next.alone = Function.update i.alone stop.threadId
        ((i.alone stop.threadId).syscallStop u stop) ∧
      (i.inside stop.threadId = none ∧
          next.inside = Function.update i.inside stop.threadId (some stop.number) ∨
        i.inside stop.threadId = some stop.number ∧
          next.inside = Function.update i.inside stop.threadId none) := by
  unfold Interleaving.step at stepped
  split at stepped
  · rename_i possible
    obtain rfl := Option.some.inj stepped
    refine ⟨possible.1, rfl, rfl, ?_⟩
    rcases possible.2 with outside | inside
    · exact .inl ⟨outside, by simp [outside]⟩
    · exact .inr ⟨inside, by simp [inside]⟩
  · exact absurd stepped (by simp)

theorem inside_elsewhere (stepped : i.step u stop = some next) {thread : Int}
    (other : thread ≠ stop.threadId) : next.inside thread = i.inside thread := by
  obtain ⟨-, -, -, ⟨-, after⟩ | ⟨-, after⟩⟩ := step_cases stepped <;> simp [after, other]

theorem inside_other (stepped : i.step u stop = some next) {number : Nat}
    (other : number ≠ stop.number) (thread : Int) :
    next.inside thread = some number ↔ i.inside thread = some number := by
  by_cases same : thread = stop.threadId
  · obtain ⟨-, -, -, ⟨before, after⟩ | ⟨before, after⟩⟩ := step_cases stepped <;>
      simp [same, before, after, Ne.symm other]
  · rw [inside_elsewhere stepped same]

/-- Without overlap the set of threads inside the system call becomes a singleton, or
empty. -/
theorem inside_own (phase : InPhase i) (apart : NoOverlap i stop)
    (stepped : i.step u stop = some next) (tracked : i.debugger.tracksPhase stop.number = true)
    {thread : Int} (inside : next.inside thread = some stop.number) :
    thread = stop.threadId ∧ ∀ other, i.inside other ≠ some stop.number := by
  obtain ⟨-, -, -, ⟨before, after⟩ | ⟨before, after⟩⟩ := step_cases stepped
  · have nobody := apart before tracked
    refine ⟨?_, nobody⟩
    by_contra other
    rw [inside_elsewhere stepped other] at inside
    exact nobody thread inside
  · by_cases same : thread = stop.threadId
    · simp [same, after] at inside
    · rw [inside_elsewhere stepped same] at inside
      exact absurd (phase.exclusive _ tracked _ _ inside before) same

theorem shared_step (calm : Unobtrusive u) (phase : InPhase i) (apart : NoOverlap i stop)
    (stepped : i.step u stop = some next) :
    Phases next.debugger fun number => ∃ thread, next.inside thread = some number := by
  obtain ⟨live, debugger, -, inside⟩ := step_cases stepped
  rw [debugger]
  refine phase.shared.toggle calm live (fun number other => ?_) fun tracked => ?_
  · exact exists_congr (inside_other stepped other)
  · constructor
    · rintro ⟨thread, inside⟩
      exact not_exists.mpr (inside_own phase apart stepped tracked inside).2
    · intro nobody
      rcases inside with ⟨-, after⟩ | ⟨before, -⟩
      · exact ⟨stop.threadId, by simp [after]⟩
      · exact absurd ⟨stop.threadId, before⟩ nobody

theorem own_step (calm : Unobtrusive u) (phase : InPhase i)
    (stepped : i.step u stop = some next) (thread : Int) :
    Phases (next.alone thread) fun number => next.inside thread = some number := by
  obtain ⟨live, -, alone, inside⟩ := step_cases stepped
  rw [alone]
  by_cases same : thread = stop.threadId
  · subst same
    rw [Function.update_self]
    rw [← phase.alone_live stop.threadId] at live
    refine (phase.own _).toggle calm live (fun number other => inside_other stepped other _) ?_
    rcases inside with ⟨before, after⟩ | ⟨before, after⟩ <;> simp [before, after]
  · rw [Function.update_of_ne same]
    simp only [inside_elsewhere stepped same]
    exact phase.own thread

theorem inPhase_step (calm : Unobtrusive u) (phase : InPhase i) (apart : NoOverlap i stop)
    (stepped : i.step u stop = some next) : InPhase next := by
  obtain ⟨live, debugger, alone, -⟩ := step_cases stepped
  have aloneLive := live
  rw [← phase.alone_live stop.threadId] at aloneLive
  refine ⟨shared_step calm phase apart stepped, own_step calm phase stepped,
    fun number tracked thread other one two => ?_, fun thread number => ?_, fun thread => ?_⟩
  · rw [debugger, tracksPhase_syscallStop calm live] at tracked
    by_cases same : number = stop.number
    · subst same
      rw [(inside_own phase apart stepped tracked one).1,
        (inside_own phase apart stepped tracked two).1]
    · rw [inside_other stepped same] at one two
      exact phase.exclusive number tracked thread other one two
  · rw [debugger, tracksPhase_syscallStop calm live, ← phase.sameHandlers thread, alone]
    by_cases same : thread = stop.threadId
    · subst same
      rw [Function.update_self, tracksPhase_syscallStop calm aloneLive]
    · rw [Function.update_of_ne same]
  · rw [debugger, syscallStop_identities calm live, ← phase.sameThreads thread, alone]
    by_cases same : thread = stop.threadId
    · subst same
      rw [Function.update_self, syscallStop_identities calm aloneLive]
    · rw [Function.update_of_ne same]

/-! ### Rightly treated stops -/

theorem not_inside_other (stepped : i.step u stop = some next) (other : number ≠ stop.number) :
    i.inside stop.threadId ≠ some number := by
  obtain ⟨-, -, -, ⟨before, -⟩ | ⟨before, -⟩⟩ := step_cases stepped <;>
    simp [before, Ne.symm other]

/-- Without overlap the thread itself is the one that is inside the system call. -/
theorem somebody_inside_iff (apart : NoOverlap i stop) (stepped : i.step u stop = some next)
    (tracked : i.debugger.tracksPhase stop.number = true) :
    (∃ thread, i.inside thread = some stop.number) ↔
      i.inside stop.threadId = some stop.number := by
  refine ⟨?_, fun inside => ⟨_, inside⟩⟩
  rintro ⟨thread, inside⟩
  obtain ⟨-, -, -, ⟨before, -⟩ | ⟨before, -⟩⟩ := step_cases stepped
  · exact absurd inside (apart before tracked thread)
  · exact before

theorem hasEntered_iff (phase : InPhase i) (apart : NoOverlap i stop)
    (stepped : i.step u stop = some next)
    (found : i.debugger.handledSyscalls.get? stop.number = some handler) :
    handler.hasEntered = true ↔
      handler.tracksPhase = true ∧ i.inside stop.threadId = some stop.number := by
  rw [(phase.shared _ _ found).2]
  refine and_congr_right fun tracked => somebody_inside_iff apart stepped ?_
  rw [tracksPhase_of_found found, tracked]

theorem tracksPhase_of_enabled (enabled : handler.enabled = true) : handler.tracksPhase = true := by
  simp [SyscallHandler.tracksPhase, enabled]

theorem calls_of_apart (calm : Unobtrusive u) (phase : InPhase i) (apart : NoOverlap i stop)
    (stepped : i.step u stop = some next) :
    ∃ calls, (i.debugger.syscallStop u stop).called = calls ++ i.debugger.called ∧
      ∀ call ∈ calls, call = (i.site stop, stop.threadId) := by
  obtain ⟨live, -, -, phases⟩ := step_cases stepped
  rcases found : i.debugger.handledSyscalls.get? stop.number with _ | handler
  · obtain ⟨g, after⟩ := syscallStop_unhandled (u := u) live found
    exact ⟨[], by rw [after]; rfl, by simp⟩
  · obtain ⟨calls, called, only⟩ := (syscallStop_handled calm live found).calls
    refine ⟨calls, called, fun call member => ?_⟩
    have allowed := only call member
    unfold SyscallHandler.mayCall at allowed
    split at allowed
    · rename_i enabled
      rw [← Option.some.inj allowed, Interleaving.site]
      have flag := hasEntered_iff phase apart stepped found
      simp only [tracksPhase_of_enabled enabled, true_and] at flag
      rcases phases with ⟨before, -⟩ | ⟨before, -⟩ <;> simp [flag, before]
    · simp at allowed

theorem hits_of_apart (calm : Unobtrusive u) (phase : InPhase i) (apart : NoOverlap i stop)
    (stepped : i.step u stop = some next)
    (found : i.debugger.handledSyscalls.get? number = some handler) :
    ((i.debugger.syscallStop u stop).handledSyscalls.get? number).map (·.hitCount) =
      some (handler.hitCount +
        if i.inside stop.threadId = some number ∧ handler.enabled = true then 1 else 0) := by
  obtain ⟨live, -⟩ := step_cases stepped
  rw [syscallStop_handlers calm live, found]
  by_cases same : number = stop.number
  · subst same
    have flag := hasEntered_iff phase apart stepped found
    have noSkip := (phase.shared _ _ found).1
    simp only [if_true, Option.map_some, SyscallHandler.after]
    by_cases inside : handler.hasEntered = true
    · have own := (flag.mp inside).2
      simp only [inside, if_true, SyscallHandler.exited, noSkip, own, true_and]
      cases handler.enabled <;> rfl
    · have nothing : ¬ (i.inside stop.threadId = some stop.number ∧ handler.enabled = true) :=
        fun done => inside (flag.mpr ⟨tracksPhase_of_enabled done.2, done.1⟩)
      simp [inside, nothing, SyscallHandler.entered]
  · simp [same, not_inside_other stepped same]

theorem rightlyTreated_iff (calm : Unobtrusive u) (phase : InPhase i)
    (stepped : i.step u stop = some next) : NoOverlap i stop ↔ RightlyTreated u i stop := by
  constructor
  · intro apart
    refine ⟨?_, calls_of_apart calm phase apart stepped,
      fun number handler found => hits_of_apart calm phase apart stepped found⟩
    rw [phase.shared.takesForExit, (phase.own _).takesForExit, phase.sameHandlers]
    exact and_congr_right (somebody_inside_iff apart stepped)
  · intro right outside tracked other inside
    -- the flag that the other thread has set is taken for one of this thread
    have taken := phase.shared.takesForExit.mpr ⟨tracked, other, inside⟩
    have own := ((phase.own _).takesForExit.mp (right.asAlone.mp taken)).2
    simp [outside] at own

end Invariant

/-- Two threads, and handlers for `read` and `write` that call functions of the user. -/
def readAndWrite : List Command :=
  [.registerNewThread 1, .registerNewThread 2, .handleSyscall 0 (some 0) (some 0) false,
    .handleSyscall 1 (some 0) (some 0) false]

def atRest : World Script := .nops { registers := fun _ => some fun _ => 0 }

/-- A stop of a thread at the system call with the number. -/
def stopAt (threadId : Int) (number : Nat) : SyscallStop := ⟨threadId, fun _ => number⟩

theorem idle_unobtrusive : Unobtrusive (idle : UserCode K) where
  returns _ _ _ := rfl
  noHijack _ _ _ _ := rfl
  sameHandlers _ _ _ := rfl

theorem nothingEntered_iff {s : Debugger K} : s.NothingEntered ↔
    ∀ entry ∈ s.handledSyscalls.entries,
      entry.2.hasEntered = false ∧ entry.2.skipExit = false := by
  simp only [Debugger.NothingEntered, Dict.get?_eq_some, Prod.forall]

end Libdebug.Ptrace
