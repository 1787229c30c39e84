import Libdebug.Ptrace.UserSide
import Libdebug.Ptrace.HijackPhases

/-!
One thread, its system calls, and handlers that the user switches on and off while it is
stopped. The kernel stops the thread at a system call only if it was resumed with
`PTRACE_SYSCALL`, and whether it was depends on the handlers that were enabled then.

A handler without callbacks tells by its flag whether the process is stopped at the enter
or at the exit of its system call. `enable` clears the flag, so it must not be called while
the thread is inside that system call; and a stop with something else must not leave the
number of the system call where the handler looks for it.
-/

namespace Libdebug.Ptrace

open Libdebug.Foundation Libdebug.Cffi

variable {K : Type} (k : Kernel K) (u : UserCode K)

/-- `hit_on_enter` -/
def SyscallHandler.hitOnEnter (handler : SyscallHandler) (syscallNumber shown : Nat) : Bool :=
  handler.enabled && shown = syscallNumber && handler.hasEntered

/-- `hit_on_exit` -/
def SyscallHandler.hitOnExit (handler : SyscallHandler) (syscallNumber shown : Nat) : Bool :=
  handler.enabled && shown = syscallNumber && !handler.hasEntered

/-- Where the process is stopped. -/
inductive StopPoint where
  | enter (number : Nat)
  | exit (number : Nat)
  | elsewhere
  deriving DecidableEq

/-- The debugger, and what the kernel knows of the thread: the system call it is inside,
where it is stopped, and how often each handler was enabled when its call was exited. -/
structure Tracee (K : Type) where
  debugger : Debugger K
  inside : Option Nat
  stop : StopPoint
  completed : Nat → Nat

inductive TraceeEvent where
  /-- `handler.enable()` -/
  | enable (number : Nat)
  /-- `handler.disable()` -/
  | disable (number : Nat)
  /-- the process is resumed, and next stops at a system call -/
  | syscall (registers : UserRegs)
  /-- the process is resumed, and next stops with something else; without
  `PTRACE_SYSCALL` it may by then have entered or left system calls unseen -/
  | elsewhere (registers : UserRegs) (inside : Option Nat)

/-- The handler of the number is enabled. -/
def Debugger.handles (s : Debugger K) (number : Nat) : Bool :=
  (s.handledSyscalls.get? number).any (·.enabled)

namespace Tracee

def start (s : Debugger K) : Tracee K := ⟨s, none, .elsewhere, fun _ => 0⟩

/-- The stop at the system call with the number of the registers. -/
def stopAtSyscall (threadId : Int) (i : Tracee K) (s : Debugger K) (registers : UserRegs) :
    Tracee K :=
  let number := registers .origRax
  match i.inside with
  | none =>
      { debugger := s.syscallStop u ⟨threadId, registers⟩
        inside := some number
        stop := .enter number
        completed := i.completed }
  | some _ =>
      { debugger := s.syscallStop u ⟨threadId, registers⟩
        inside := none
        stop := .exit number
        completed := if s.handles number
          then Function.update i.completed number (i.completed number + 1) else i.completed }

/-- The stop elsewhere, at which the registers are read. -/
def stopElsewhere (threadId : Int) (i : Tracee K) (s : Debugger K) (registers : UserRegs)
    (inside : Option Nat) : Tracee K :=
  { debugger :=
      match s.liveFile threadId with
      | none => s
      | some file => s.withRegisters file registers
    inside
    stop := .elsewhere
    completed := i.completed }

def step (threadId : Int) (i : Tracee K) : TraceeEvent → Option (Tracee K)
  | .enable number => some { i with debugger := i.debugger.perform (.enableHandler number) }
  | .disable number => some { i with debugger := i.debugger.perform (.disableHandler number) }
  | .syscall registers =>
      match (cont k).run i.debugger with
      | .error _ _ => none
      | .ok _ s =>
          if s.globalState.handleSyscallEnabled = true ∧
              (i.inside = none ∨ i.inside = some (registers .origRax)) then
            some (i.stopAtSyscall u threadId s registers)
          else none
  | .elsewhere registers inside =>
      match (cont k).run i.debugger with
      | .error _ _ => none
      | .ok _ s =>
          if s.globalState.handleSyscallEnabled = true → inside = i.inside then
            some (i.stopElsewhere threadId s registers inside)
          else none

end Tracee

def tracing (threadId : Int) : Machine (Tracee K) TraceeEvent := ⟨Tracee.step k u threadId⟩

/-- A handler without callbacks that is enabled reports the enter and the exit stops of its
system call, and nothing else; it has counted the exits; and while it is enabled its flag
is set exactly if the thread is inside the system call. -/
structure Tracee.ReportedBy (threadId : Int) (s : Debugger K) (i : Tracee K) (number : Nat)
    (handler : SyscallHandler) : Prop where
  enter : handler.enabled = true → ∀ file ∈ i.debugger.liveFile threadId,
    (handler.hitOnEnter number (i.debugger.globalState.files file .origRax) = true ↔
      i.stop = .enter number)
  exit : handler.enabled = true → ∀ file ∈ i.debugger.liveFile threadId,
    (handler.hitOnExit number (i.debugger.globalState.files file .origRax) = true ↔
      i.stop = .exit number)
  counted : ∀ before, s.handledSyscalls.get? number = some before →
    handler.hitCount = before.hitCount + i.completed number
  phase : handler.enabled = true → (handler.hasEntered = true ↔ i.inside = some number)

/-- Functions of the user that keep the number of every system call. -/
def KeepsNumbers (u : UserCode K) : Prop :=
  ∀ callback threadId (s : Debugger K) thread,
    (s.performAll (u callback threadId s).1).syscallNumber thread = s.syscallNumber thread

def SyscallHandler.Callbackless (handler : SyscallHandler) : Prop :=
  handler.onEnterUser = none ∧ handler.onExitUser = none

/-- Every handler without callbacks reports rightly. -/
def Tracee.Reported (threadId : Int) (s : Debugger K) (i : Tracee K) : Prop :=
  ∀ number handler, i.debugger.handledSyscalls.get? number = some handler →
    handler.Callbackless → i.ReportedBy threadId s number handler

/-- The state after the event is reported rightly. -/
def Tracee.Reports (threadId : Int) (s : Debugger K) (i : Tracee K) (event : TraceeEvent) : Prop :=
  ∀ next, i.step k u threadId event = some next → next.Reported threadId s

/-- No handler without callbacks that is enabled takes the number for the one of its own
system call. -/
def Debugger.Unclaimed (s : Debugger K) (number : Nat) : Prop :=
  ∀ handler, s.handledSyscalls.get? number = some handler → handler.Callbackless →
    handler.enabled = false

/-- A handler without callbacks is enabled only while the thread is outside its system call,
and does not show its number for another reason than having just exited; and a stop
elsewhere shows the number of no such handler that is enabled. -/
def Tracee.Orderly (threadId : Int) (i : Tracee K) : TraceeEvent → Prop
  | .enable number =>
      ∀ handler, i.debugger.handledSyscalls.get? number = some handler → handler.Callbackless →
        i.inside ≠ some number ∧ (i.stop = .elsewhere →
          ∀ file ∈ i.debugger.liveFile threadId,
            i.debugger.globalState.files file .origRax ≠ number)
  | .elsewhere registers _ => i.debugger.Unclaimed (registers .origRax)
  | .disable _ | .syscall _ => True

variable {k u}

/-! ### How the process is resumed -/

/-- The request that `cont` resumes the threads with. -/
theorem cont_handleSyscallEnabled {s t : Debugger K} (resumed : (cont k).run s = .ok () t) :
    t.globalState.handleSyscallEnabled = handleSyscallEnabled s.handledSyscalls.values := by
  obtain ⟨_, r, forwarded, rest⟩ := ok_of_bind resumed
  obtain ⟨_, r', applied, rest⟩ := ok_of_bind rest
  have same : r'.userSide = s.userSide :=
    (applyChanges_sparesUser.of_ok applied).trans (forwardSignals_sparesUser.of_ok forwarded)
  have handlers : r'.handledSyscalls = s.handledSyscalls := congrArg (·.handledSyscalls) same
  obtain ⟨_, _, noted, rest⟩ := ok_of_bind rest
  cases noted
  obtain ⟨_, _, flagged, rest⟩ := ok_of_bind rest
  cases flagged
  obtain ⟨result, q, ran, rest⟩ := ok_of_bind rest
  cases ran
  rw [(raiseErrnoIf_ok rest).2, ← handlers]

/-! ### The flag and the kernel -/

section Invariant

variable {threadId : Int} {s₀ s : Debugger K} {i next : Tracee K} {number : Nat}
  {handler : SyscallHandler}

/-- What the thread shows as the number of its system call fits where it is stopped. -/
def Tracee.Shows (i : Tracee K) (shown : Nat) : Prop :=
  match i.stop with
  | .enter number => shown = number ∧ i.inside = some number
  | .exit number => shown = number ∧ i.inside = none
  | .elsewhere => i.debugger.Unclaimed shown

/-- A handler without callbacks has its flag set, if it is enabled, exactly while the thread
is inside its system call. -/
structure Tracee.FlaggedBy (s₀ : Debugger K) (i : Tracee K) (number : Nat)
    (handler : SyscallHandler) : Prop where
  unskipped : handler.skipExit = false
  flag : handler.enabled = true → (handler.hasEntered = true ↔ i.inside = some number)
  counted : ∀ before, s₀.handledSyscalls.get? number = some before →
    handler.hitCount = before.hitCount + i.completed number

structure Tracee.Agrees (threadId : Int) (s₀ : Debugger K) (i : Tracee K) : Prop where
  shows : ∃ file, i.debugger.liveFile threadId = some file ∧
    i.Shows (i.debugger.globalState.files file .origRax)
  flags : ∀ number handler, i.debugger.handledSyscalls.get? number = some handler →
    handler.Callbackless → i.FlaggedBy s₀ number handler

theorem reported_of_agrees (agrees : i.Agrees threadId s₀) : i.Reported threadId s₀ := by
  intro number handler found silent
  obtain ⟨file, live, shows⟩ := agrees.shows
  obtain ⟨-, flag, counted⟩ := agrees.flags number handler found silent
  have unshown (enabled : handler.enabled = true)
      (unclaimed : i.debugger.Unclaimed (i.debugger.globalState.files file .origRax)) :
      i.debugger.globalState.files file .origRax ≠ number := by
    rintro rfl
    rw [unclaimed handler found silent] at enabled
    cases enabled
  constructor
  · intro enabled file' live'
    obtain rfl := Option.some.inj (live.symm.trans live')
    simp only [SyscallHandler.hitOnEnter, enabled, Bool.true_and, Bool.and_eq_true,
      decide_eq_true_eq, flag enabled]
    cases stop : i.stop <;> simp only [Tracee.Shows, stop] at shows
    case enter stopped => simp [shows.1, shows.2]
    case exit stopped => simp [shows.2]
    case elsewhere => simp [unshown enabled shows]
  · intro enabled file' live'
    obtain rfl := Option.some.inj (live.symm.trans live')
    simp only [SyscallHandler.hitOnExit, enabled, Bool.true_and, Bool.and_eq_true,
      decide_eq_true_eq, Bool.not_eq_true', ← Bool.not_eq_true, flag enabled]
    cases stop : i.stop <;> simp only [Tracee.Shows, stop] at shows
    case enter stopped =>
        rw [shows.1, shows.2]
        simp
    case exit stopped => simp [shows.1, shows.2]
    case elsewhere => simp [unshown enabled shows]
  · exact counted
  · exact flag

theorem agrees_start (nothing : s.NothingEntered) {file : Ptr}
    (live : s.liveFile threadId = some file)
    (unclaimed : s.Unclaimed (s.globalState.files file .origRax)) :
    (Tracee.start s).Agrees threadId s where
  shows := ⟨file, live, unclaimed⟩
  flags number handler found _ := by
    obtain ⟨outside, unskipped⟩ := nothing number handler found
    refine ⟨unskipped, fun _ => ?_, fun before same => ?_⟩
    · simp [outside, Tracee.start]
    · cases found.symm.trans same
      rfl

theorem unclaimed_updateHandler {changed : Nat} {f : SyscallHandler → SyscallHandler}
    (silent : ∀ handler, (f handler).Callbackless ↔ handler.Callbackless)
    (idle : number = changed → ∀ handler, s.handledSyscalls.get? changed = some handler →
      handler.Callbackless → (f handler).enabled = false)
    (unclaimed : s.Unclaimed number) : (s.updateHandler changed f).Unclaimed number := by
  intro handler found callbackless
  simp only [Debugger.updateHandler, Dict.get?_modify] at found
  split at found
  · rename_i here
    obtain ⟨before, earlier, rfl⟩ := Option.map_eq_some_iff.mp found
    exact idle here before earlier ((silent before).mp callbackless)
  · exact unclaimed handler found callbackless

/-- A handler is switched on while the thread is outside its system call, or switched off. -/
theorem agrees_toggle (agrees : i.Agrees threadId s₀) {changed : Nat} (enabled : Bool)
    (outside : enabled = true → ∀ handler, i.debugger.handledSyscalls.get? changed = some handler →
      handler.Callbackless → i.inside ≠ some changed ∧ (i.stop = .elsewhere →
        ∀ file ∈ i.debugger.liveFile threadId,
          i.debugger.globalState.files file .origRax ≠ changed))
    (toggled : next.debugger = i.debugger.updateHandler changed fun handler =>
      { handler with enabled := enabled, hasEntered := false })
    (same : next = { i with debugger := next.debugger }) : next.Agrees threadId s₀ := by
  rw [same, toggled]
  constructor
  · obtain ⟨file, live, shows⟩ := agrees.shows
    refine ⟨file, live, ?_⟩
    unfold Tracee.Shows at shows ⊢
    cases stop : i.stop <;> simp only [stop] at shows ⊢
    case elsewhere =>
        refine unclaimed_updateHandler (fun handler => ?_) ?_ shows
        · exact Iff.rfl
        · intro here handler found silent
          by_contra on
          have on : enabled = true := (Bool.not_eq_false _).mp on
          exact (outside on handler found silent).2 stop file live here
    all_goals exact shows
  · intro number handler found silent
    simp only [Debugger.updateHandler, Dict.get?_modify] at found
    split at found
    · rename_i here
      obtain ⟨before, earlier, rfl⟩ := Option.map_eq_some_iff.mp found
      obtain ⟨unskipped, -, counted⟩ := agrees.flags changed before earlier silent
      refine ⟨unskipped, fun on => ?_, here ▸ counted⟩
      simp [here, (outside on before earlier silent).1]
    · obtain ⟨unskipped, flag, counted⟩ := agrees.flags number handler found silent
      exact ⟨unskipped, flag, counted⟩

/-- What resuming leaves as it was. -/
theorem resumed_same (threadId : Int) {t : Debugger K} (resumed : (cont k).run s = .ok () t) :
    t.handledSyscalls = s.handledSyscalls ∧ t.liveFile threadId = s.liveFile threadId := by
  constructor
  · exact congrArg (·.handledSyscalls) (cont_sparesUser.of_ok resumed)
  · apply Debugger.liveFile_of_identities
    exact cont_touches.of_ok resumed .identities (by decide)

end Invariant

/-! ### The other handlers at a stop -/

/-- What happens to the handlers at a stop with the number, callbacks included: every
handler keeps its callbacks, and the others are switched on and off at most. -/
def Bystanders (number : Nat) (s t : Debugger K) : Prop :=
  ∀ other after, t.handledSyscalls.get? other = some after →
    ∃ before, s.handledSyscalls.get? other = some before ∧
      (after.Callbackless ↔ before.Callbackless) ∧
      (other ≠ number → after.skipExit = before.skipExit ∧ after.hitCount = before.hitCount ∧
        (after.enabled = true → after.hasEntered = true →
          before.enabled = true ∧ before.hasEntered = true))

instance (number : Nat) : IsPreorder (Debugger K) (Bystanders number) where
  refl s other after found := ⟨after, found, Iff.rfl, fun _ => ⟨rfl, rfl, And.intro⟩⟩
  trans r s t first second other after found := by
    obtain ⟨middle, found, silent, spared⟩ := second other after found
    obtain ⟨before, found, silent', spared'⟩ := first other middle found
    refine ⟨before, found, silent.trans silent', fun apart => ?_⟩
    obtain ⟨skip, hits, entered⟩ := spared apart
    obtain ⟨skip', hits', entered'⟩ := spared' apart
    refine ⟨skip.trans skip', hits.trans hits', fun on set => ?_⟩
    obtain ⟨on, set⟩ := entered on set
    exact entered' on set

section AtAStop

variable {number : Nat} {s : Debugger K}

theorem bystanders_of_same {t : Debugger K} (same : t.handledSyscalls = s.handledSyscalls) :
    Bystanders number s t := by
  intro other after found
  exact refl_of (Bystanders number) s other after (same ▸ found)

theorem bystanders_updateHandler (updated : Nat) {f : SyscallHandler → SyscallHandler}
    (silent : ∀ handler, (f handler).Callbackless ↔ handler.Callbackless)
    (spares : updated ≠ number → ∀ handler, (f handler).skipExit = handler.skipExit ∧
      (f handler).hitCount = handler.hitCount ∧
      ((f handler).enabled = true → (f handler).hasEntered = true →
        handler.enabled = true ∧ handler.hasEntered = true)) :
    Bystanders number s (s.updateHandler updated f) := by
  intro other after found
  simp only [Debugger.updateHandler, Dict.get?_modify] at found
  split at found
  · rename_i here
    subst here
    obtain ⟨before, earlier, rfl⟩ := Option.map_eq_some_iff.mp found
    exact ⟨before, earlier, silent before, fun apart => spares apart before⟩
  · exact refl_of (Bystanders number) s other after found

theorem bystanders_perform (number : Nat) (s : Debugger K) (action : Action) :
    Bystanders number s (s.perform action) := by
  cases action with
  | enableHandler changed | disableHandler changed =>
      apply bystanders_updateHandler
      · exact fun _ => Iff.rfl
      · exact fun _ _ => ⟨rfl, rfl, by simp⟩
  | setSignal thread signal =>
      apply bystanders_of_same
      simp only [Debugger.perform, Debugger.setSignal]
      split <;> rfl
  | _ => exact bystanders_of_same rfl

theorem bystanders_performAll (number : Nat) (s : Debugger K) (actions : List Action) :
    Bystanders number s (s.performAll actions) := by
  induction actions generalizing s with
  | nil => exact refl_of (Bystanders number) s
  | cons action rest ih =>
      exact trans_of (Bystanders number) (bystanders_perform number s action) (ih _)

theorem runCallback_bystanders (number : Nat) (site : CallSite) (callback : Callback)
    (threadId : Int) :
    Keeps (Bystanders number) (runCallback u site callback threadId) := by
  intro s
  rw [stateAfter_runCallback]
  exact bystanders_performAll number (s.noteCall (site, threadId)) _

theorem setHasEntered_bystanders : Keeps (Bystanders number) (setHasEntered number : Py K Unit) :=
  Keeps.modify fun _ => bystanders_updateHandler number (fun _ => Iff.rfl) (absurd rfl)

theorem callOnEnter_bystanders (numbers : KeepsNumbers u) {thread : ThreadContext}
    (shown : s.syscallNumber thread = number) (handler : SyscallHandler) (callback : Callback)
    (hijackedSet : List Nat) (recurse : Nat → List Nat → Py K Unit) :
    Bystanders number s
      (stateAfter (callOnEnter u thread number handler callback hijackedSet recurse) s) := by
  unfold callOnEnter
  apply stateAfter_bind
  · intro e t raised
    exact (runCallback_bystanders number _ _ _).of_error raised
  · intro _ t returned
    have called := (runCallback_bystanders number _ _ _).of_ok returned
    have same : t.syscallNumber thread = number := by
      rw [← stateAfter_of_ok returned, stateAfter_runCallback, numbers]
      exact shown
    rw [stateAfter_get_bind, if_pos same]
    exact trans_of (Bystanders number) called (setHasEntered_bystanders t)

theorem enterHandler_bystanders (numbers : KeepsNumbers u) {thread : ThreadContext}
    (shown : s.syscallNumber thread = number) (handler : SyscallHandler)
    (hijackedSet : List Nat) (recurse : Nat → List Nat → Py K Unit) :
    Bystanders number s
      (stateAfter (enterHandler u thread number handler hijackedSet recurse) s) := by
  unfold enterHandler
  split
  · exact callOnEnter_bystanders numbers shown _ _ _ _
  · split
    · exact setHasEntered_bystanders s
    · exact refl_of (Bystanders number) s

theorem manageSyscallOnEnter_bystanders (numbers : KeepsNumbers u) {thread : ThreadContext}
    (shown : s.syscallNumber thread = number) (fuel : Nat) (hijackedSet : List Nat) :
    Bystanders number s
      (stateAfter (manageSyscallOnEnter u thread fuel number hijackedSet) s) := by
  cases fuel with
  | zero => exact refl_of (Bystanders number) s
  | succ fuel =>
      rw [manageSyscallOnEnter, stateAfter_get_bind]
      split
      · exact refl_of (Bystanders number) s
      · rename_i handler found
        have entered := enterHandler_bystanders numbers shown handler hijackedSet
          (manageSyscallOnEnter u thread fuel)
        apply stateAfter_bind
        · intro e t raised
          exact stateAfter_of_error raised ▸ entered
        · intro _ t returned
          rw [stateAfter_of_ok returned] at entered
          refine trans_of (Bystanders number) entered ?_
          rw [stateAfter_get_bind]
          split
          · exact trans_of (Bystanders number) (setHasEntered_bystanders t)
              (bystanders_of_same rfl)
          · exact refl_of (Bystanders number) t

theorem exitHandler_bystanders (thread : ThreadContext) (handler : SyscallHandler) :
    Keeps (Bystanders number) (exitHandler u thread number handler) := by
  refine Keeps.bind ?_ fun _ => Keeps.bind ?_ fun _ => Keeps.bind ?_ fun _ =>
    Keeps.get.bind fun s => Keeps.ite (fun _ => ?_) fun _ => Keeps.pure _
  · apply Keeps.modify
    intro s
    apply bystanders_updateHandler
    · intro handler
      split <;> exact Iff.rfl
    · exact absurd rfl
  · unfold callOnExit
    split
    · exact runCallback_bystanders number _ _ _
    · exact Keeps.pure _
  · exact Keeps.modify fun s => bystanders_updateHandler number (fun _ => Iff.rfl) (absurd rfl)
  · exact Keeps.modify fun s => bystanders_of_same rfl

theorem handleSyscall_bystanders (numbers : KeepsNumbers u) {threadId : Int} {file : Ptr}
    (live : s.liveFile threadId = some file) (shown : s.globalState.files file .origRax = number) :
    Bystanders number s (stateAfter (handleSyscall u threadId) s) := by
  obtain ⟨thread, context, -, rfl⟩ := liveFile_eq_some.mp live
  obtain rfl : s.syscallNumber thread = number := shown
  cases found : s.handledSyscalls.get? (s.syscallNumber thread) with
  | none =>
      rw [handleSyscall_absent context found]
      exact refl_of (Bystanders (s.syscallNumber thread)) s
  | some handler =>
      cases entered : handler.hasEntered with
      | true =>
          rw [handleSyscall_entered context found entered]
          exact exitHandler_bystanders _ _ s
      | false =>
          rw [handleSyscall_outside context found entered]
          exact manageSyscallOnEnter_bystanders numbers rfl _ _

/-- A handler without callbacks calls no function of the user. -/
theorem handleSyscall_callbackless {threadId : Int} {file : Ptr} {handler : SyscallHandler}
    (live : s.liveFile threadId = some file) (shown : s.globalState.files file .origRax = number)
    (found : s.handledSyscalls.get? number = some handler) (silent : handler.Callbackless) :
    stateAfter (handleSyscall u threadId) s = stateAfter (handleSyscall idle threadId) s := by
  obtain ⟨thread, context, -, rfl⟩ := liveFile_eq_some.mp live
  obtain rfl : s.syscallNumber thread = number := shown
  obtain ⟨noEnter, noExit⟩ := silent
  cases entered : handler.hasEntered with
  | true =>
      rw [handleSyscall_entered context found entered, handleSyscall_entered context found entered]
      simp only [exitHandler, callOnExit, noExit]
  | false =>
      rw [handleSyscall_outside context found entered, handleSyscall_outside context found entered]
      simp only [manageSyscallOnEnter, stateAfter_get_bind, found, enterHandler, noEnter]

end AtAStop

section SyscallStop

variable {s : Debugger K} {stop : SyscallStop} {file : Ptr}

theorem shown_withRegisters (s : Debugger K) (registers : UserRegs) :
    (s.withRegisters file registers).globalState.files file .origRax = registers .origRax := by
  simp [Debugger.withRegisters, GlobalState.setFile]

theorem syscallStop_of_liveFile (live : s.liveFile stop.threadId = some file) :
    s.syscallStop u stop =
      stateAfter (handleSyscall u stop.threadId) (s.withRegisters file stop.registers) := by
  rw [Debugger.syscallStop, live]
  rfl

theorem syscallStop_bystanders (stop : SyscallStop) (numbers : KeepsNumbers u)
    (live : s.liveFile stop.threadId = some file) :
    Bystanders stop.number s (s.syscallStop u stop) := by
  rw [syscallStop_of_liveFile live]
  exact handleSyscall_bystanders (s := s.withRegisters file stop.registers) numbers live
    (shown_withRegisters s _)

theorem syscallStop_callbackless (stop : SyscallStop) {handler : SyscallHandler}
    (live : s.liveFile stop.threadId = some file)
    (found : s.handledSyscalls.get? stop.number = some handler) (silent : handler.Callbackless) :
    (s.syscallStop u stop).handledSyscalls.get? stop.number = some handler.after := by
  have same : s.syscallStop u stop = s.syscallStop idle stop := by
    rw [syscallStop_of_liveFile live, syscallStop_of_liveFile live]
    exact handleSyscall_callbackless (s := s.withRegisters file stop.registers) live
      (shown_withRegisters s _) found silent
  rw [same, syscallStop_handlers idle_unobtrusive (live ▸ rfl), if_pos rfl, found, Option.map_some]

/-- The thread still shows the number that it has stopped with. -/
theorem syscallStop_shows (stop : SyscallStop) (numbers : KeepsNumbers u)
    (live : s.liveFile stop.threadId = some file) :
    (s.syscallStop u stop).globalState.files file .origRax = stop.number := by
  have leaves : Leaves (fun t : Debugger K => t.globalState.files file .origRax)
      (handleSyscall u stop.threadId) := by
    apply handleSyscall_keeps
    · exact fun _ _ => Keeps.modify fun _ => rfl
    · exact Keeps.modify fun _ => rfl
    · intro site callback threadId t
      rw [Same, stateAfter_runCallback]
      let thread : ThreadContext := { threadId, registerFile := file }
      exact numbers callback threadId (t.noteCall (site, threadId)) thread
  rw [syscallStop_of_liveFile live]
  exact (leaves (s.withRegisters file stop.registers)).trans (shown_withRegisters s _)

end SyscallStop

/-! ### One event -/

section Events

variable {threadId : Int} {s₀ s : Debugger K} {i next : Tracee K} {number : Nat}
  {handler : SyscallHandler}

/-- A handler that is disabled neither counts nor tells anything. -/
theorem flaggedBy_disabled (unskipped : handler.skipExit = false)
    (disabled : handler.enabled = false)
    (counted : ∀ before, s₀.handledSyscalls.get? number = some before →
      handler.hitCount = before.hitCount + next.completed number) :
    next.FlaggedBy s₀ number handler.after := by
  unfold SyscallHandler.after
  split
  · constructor
    · rfl
    · simp [SyscallHandler.exited, disabled]
    · simpa [SyscallHandler.exited, disabled] using counted
  · constructor
    · exact unskipped
    · simp [SyscallHandler.entered, disabled]
    · exact counted

/-- The handler of the system call after a stop at which the thread enters it. -/
theorem flaggedBy_enter (flagged : i.FlaggedBy s₀ number handler) (outside : i.inside = none)
    (inside : next.inside = some number) (completed : next.completed = i.completed) :
    next.FlaggedBy s₀ number handler.after := by
  obtain ⟨unskipped, flag, counted⟩ := flagged
  cases enabled : handler.enabled with
  | false => exact flaggedBy_disabled unskipped enabled (completed ▸ counted)
  | true =>
      have clear : handler.hasEntered = false := by
        rw [← Bool.not_eq_true, flag enabled, outside]
        simp
      have after : handler.after = handler.entered := by simp [SyscallHandler.after, clear]
      rw [after, SyscallHandler.entered, tracksPhase_of_enabled enabled]
      constructor
      · exact unskipped
      · simp [inside]
      · rw [completed]
        exact counted

/-- The handler of the system call after a stop at which the thread exits it. -/
theorem flaggedBy_exit (flagged : i.FlaggedBy s₀ number handler)
    (inside : i.inside = some number) (outside : next.inside = none)
    (completed : next.completed = if handler.enabled
      then Function.update i.completed number (i.completed number + 1) else i.completed) :
    next.FlaggedBy s₀ number handler.after := by
  obtain ⟨unskipped, flag, counted⟩ := flagged
  cases enabled : handler.enabled with
  | false =>
      rw [enabled] at completed
      exact flaggedBy_disabled unskipped enabled (completed ▸ counted)
  | true =>
      have after : handler.after = handler.exited := by
        simp [SyscallHandler.after, (flag enabled).mpr inside]
      rw [after]
      constructor
      · rfl
      · simp [SyscallHandler.exited, outside]
      · intro before found
        have hits := counted before found
        simp [completed, SyscallHandler.exited, enabled, unskipped, hits, Nat.add_assoc]

/-- The handler of another system call. -/
theorem flaggedBy_elsewhere {before : SyscallHandler} (flagged : i.FlaggedBy s₀ number before)
    (skip : handler.skipExit = before.skipExit) (hits : handler.hitCount = before.hitCount)
    (entered : handler.enabled = true → handler.hasEntered = true →
      before.enabled = true ∧ before.hasEntered = true)
    (was : i.inside ≠ some number) (is : next.inside ≠ some number)
    (completed : next.completed number = i.completed number) :
    next.FlaggedBy s₀ number handler := by
  obtain ⟨unskipped, flag, counted⟩ := flagged
  constructor
  · exact skip.trans unskipped
  · intro enabled
    constructor
    · intro set
      obtain ⟨enabled, set⟩ := entered enabled set
      exact absurd ((flag enabled).mp set) was
    · exact fun inside => absurd inside is
  · intro found same
    rw [hits, completed]
    exact counted found same

theorem callbackless_after : handler.after.Callbackless ↔ handler.Callbackless := by
  unfold SyscallHandler.after
  split <;> exact Iff.rfl

/-- The process is resumed and stops at a system call. -/
theorem agrees_syscall (numbers : KeepsNumbers u) (agrees : i.Agrees threadId s₀)
    {registers : UserRegs} (resumed : (cont k).run i.debugger = .ok () s)
    (possible : i.inside = none ∨ i.inside = some (registers .origRax)) :
    (i.stopAtSyscall u threadId s registers).Agrees threadId s₀ := by
  obtain ⟨sameHandlers, sameFile⟩ := resumed_same threadId resumed
  obtain ⟨file, live, -⟩ := agrees.shows
  have live : s.liveFile threadId = some file := sameFile.trans live
  let stop : SyscallStop := ⟨threadId, registers⟩
  have bystanders := syscallStop_bystanders stop numbers live
  have shows := syscallStop_shows stop numbers live
  have stays : (s.syscallStop u stop).liveFile threadId = some file :=
    (Debugger.liveFile_of_identities (syscallStop_identities_same stop) threadId).trans live
  have debugger : (i.stopAtSyscall u threadId s registers).debugger = s.syscallStop u stop := by
    unfold Tracee.stopAtSyscall
    split <;> rfl
  constructor
  · refine ⟨file, debugger ▸ stays, ?_⟩
    rw [debugger]
    unfold Tracee.stopAtSyscall Tracee.Shows
    cases i.inside with
    | none => exact ⟨shows, rfl⟩
    | some number => exact ⟨shows, rfl⟩
  · intro number handler found silent
    rw [debugger] at found
    obtain ⟨before, earlier, callbackless, spared⟩ := bystanders number handler found
    have flagged : i.FlaggedBy s₀ number before :=
      agrees.flags number before (sameHandlers ▸ earlier) (callbackless.mp silent)
    by_cases here : number = stop.number
    · subst here
      have after := syscallStop_callbackless (u := u) stop live earlier
        (callbackless.mp silent)
      obtain rfl := Option.some.inj (found.symm.trans after)
      unfold Tracee.stopAtSyscall
      cases inside : i.inside with
      | none => exact flaggedBy_enter flagged inside rfl rfl
      | some number =>
          have same : some number = some stop.number := by
            simpa [inside, stop, SyscallStop.number] using possible
          refine flaggedBy_exit flagged (inside.trans same) rfl ?_
          simp only [Debugger.handles, stop, SyscallStop.number] at earlier ⊢
          simp [earlier]
    · obtain ⟨skip, hits, entered⟩ := spared here
      have apart : registers .origRax ≠ number := fun same => here same.symm
      apply flaggedBy_elsewhere flagged skip hits entered
      · rcases possible with outside | inside
        · simp [outside]
        · simp [inside, apart]
      · unfold Tracee.stopAtSyscall
        cases i.inside <;> simp [apart]
      · unfold Tracee.stopAtSyscall
        cases i.inside with
        | none => rfl
        | some _ =>
            dsimp only
            split
            · exact Function.update_of_ne here _ _
            · rfl

/-- Without `PTRACE_SYSCALL` no handler is enabled. -/
theorem disabled_of_untraced (untraced : handleSyscallEnabled s.handledSyscalls.values = false)
    (found : s.handledSyscalls.get? number = some handler) : handler.enabled = false := by
  have member : handler ∈ s.handledSyscalls.values := Dict.mem_values.mpr ⟨number, found⟩
  have unused := List.any_eq_false.mp untraced handler member
  simp only [Bool.or_eq_true, not_or, Bool.not_eq_true] at unused
  exact unused.1.1

/-- The process is resumed and stops with something else. -/
theorem agrees_elsewhere (agrees : i.Agrees threadId s₀) {registers : UserRegs}
    {inside : Option Nat} (resumed : (cont k).run i.debugger = .ok () s)
    (possible : s.globalState.handleSyscallEnabled = true → inside = i.inside)
    (unclaimed : i.debugger.Unclaimed (registers .origRax)) :
    (i.stopElsewhere threadId s registers inside).Agrees threadId s₀ := by
  obtain ⟨sameHandlers, sameFile⟩ := resumed_same threadId resumed
  obtain ⟨file, live, -⟩ := agrees.shows
  have live : s.liveFile threadId = some file := sameFile.trans live
  have shows : (s.withRegisters file registers).Unclaimed
      ((s.withRegisters file registers).globalState.files file .origRax) := by
    rw [shown_withRegisters]
    intro handler found
    exact unclaimed handler (sameHandlers ▸ found)
  simp only [Tracee.stopElsewhere, live]
  constructor
  · exact ⟨file, live, shows⟩
  · intro number handler found silent
    have earlier : i.debugger.handledSyscalls.get? number = some handler := sameHandlers ▸ found
    obtain ⟨unskipped, flag, counted⟩ := agrees.flags number handler earlier silent
    refine ⟨unskipped, fun enabled => ?_, counted⟩
    cases traced : handleSyscallEnabled i.debugger.handledSyscalls.values with
    | true =>
        rw [← cont_handleSyscallEnabled resumed] at traced
        rw [flag enabled, possible traced]
    | false =>
        rw [disabled_of_untraced traced earlier] at enabled
        cases enabled

theorem agrees_step (numbers : KeepsNumbers u) (agrees : i.Agrees threadId s₀)
    {event : TraceeEvent} (orderly : i.Orderly threadId event)
    (stepped : i.step k u threadId event = some next) : next.Agrees threadId s₀ := by
  cases event with
  | enable changed =>
      cases stepped
      exact agrees_toggle agrees true (fun _ => orderly) rfl rfl
  | disable changed =>
      cases stepped
      exact agrees_toggle agrees false (by simp) rfl rfl
  | syscall registers =>
      simp only [Tracee.step] at stepped
      split at stepped
      · cases stepped
      · rename_i resumed
        split at stepped
        · rename_i possible
          cases stepped
          exact agrees_syscall numbers agrees resumed possible.2
        · cases stepped
  | elsewhere registers inside =>
      simp only [Tracee.step] at stepped
      split at stepped
      · cases stepped
      · rename_i resumed
        split at stepped
        · rename_i possible
          cases stepped
          exact agrees_elsewhere agrees resumed possible orderly
        · cases stepped

/-- A handler that is enabled and takes the number for its own reports something. -/
theorem unclaimed_of_reported (reported : i.Reported threadId s₀) (stop : i.stop = .elsewhere)
    {file : Ptr} (live : i.debugger.liveFile threadId = some file) :
    i.debugger.Unclaimed (i.debugger.globalState.files file .origRax) := by
  intro handler found silent
  by_contra enabled
  have enabled : handler.enabled = true := (Bool.not_eq_false _).mp enabled
  obtain ⟨enter, exit, -, -⟩ := reported _ handler found silent
  have enter := enter enabled file live
  have exit := exit enabled file live
  simp only [SyscallHandler.hitOnEnter, SyscallHandler.hitOnExit, enabled, stop] at enter exit
  cases entered : handler.hasEntered <;> simp [entered] at enter exit

theorem orderly_of_reports (agrees : i.Agrees threadId s₀) {event : TraceeEvent}
    (reports : i.Reports k u threadId s₀ event) (stepped : i.step k u threadId event = some next) :
    i.Orderly threadId event := by
  have reported := reports next stepped
  cases event with
  | enable changed =>
      cases stepped
      intro handler found silent
      let on : SyscallHandler := { handler with enabled := true, hasEntered := false }
      have found' : (i.debugger.perform (.enableHandler changed)).handledSyscalls.get? changed =
          some on := by
        simp [Debugger.perform, Debugger.updateHandler, Dict.get?_modify, found, on]
      constructor
      · intro inside
        have phase := (reported changed on found' silent).phase rfl
        simp [on, inside] at phase
      · rintro stop file live rfl
        have unclaimed := unclaimed_of_reported reported stop live
        cases unclaimed on found' silent
  | disable changed => trivial
  | syscall registers => trivial
  | elsewhere registers inside =>
      simp only [Tracee.step] at stepped
      split at stepped
      · cases stepped
      · rename_i s resumed
        split at stepped
        · cases stepped
          obtain ⟨sameHandlers, sameFile⟩ := resumed_same threadId resumed
          obtain ⟨file, live, -⟩ := agrees.shows
          have live : s.liveFile threadId = some file := sameFile.trans live
          have debugger : (i.stopElsewhere threadId s registers inside).debugger =
              s.withRegisters file registers := by
            simp only [Tracee.stopElsewhere, live]
          have unclaimed := unclaimed_of_reported reported rfl
            (debugger.symm ▸ live : Debugger.liveFile _ threadId = some file)
          rw [debugger, shown_withRegisters] at unclaimed
          intro handler found
          exact unclaimed handler (sameHandlers.symm ▸ found)
        · cases stepped

end Events

theorem idle_keepsNumbers : KeepsNumbers (idle : UserCode K) := fun _ _ _ _ => rfl

theorem unclaimed_of_absent {s : Debugger K} {number : Nat}
    (absent : s.handledSyscalls.get? number = none) : s.Unclaimed number := by
  intro handler found
  rw [absent] at found
  cases found

end Libdebug.Ptrace
