import Libdebug.InternalDebugger.FinishStops
import Libdebug.Ptrace.UserSide

/-!
`interrupt` while the polling thread goes on. The main thread looks at `running`, sets
`force_interrupt`, sends `SIGSTOP` and waits, one step after the other; meanwhile the polling
thread may be anywhere in the loop of `__threaded_wait`, and the process may stop for a reason
of its own. The flag is reset only where a `SIGSTOP` is handled.
-/

namespace Libdebug.InternalDebugger

open Libdebug.Foundation Libdebug.Cffi Libdebug.Ptrace

variable {K : Type} {k : Kernel K} {u : UserCode K}

/-! ### The flag in the status handler -/

/-- The thread has stopped by `SIGSTOP`. -/
def sigstopped (st : ThreadStatus) : Bool := wifstopped st.status && wstopsig st.status = SIGSTOP

/-- An interrupt is not requested where none was, and the process does not start anew. -/
structure Unrequested (s t : Debugger K) : Prop where
  startup : t.resumeContext.isStartup = s.resumeContext.isStartup
  request : t.resumeContext.forceInterrupt = true → s.resumeContext.forceInterrupt = true

instance : IsPreorder (Debugger K) Unrequested where
  refl _ := ⟨rfl, id⟩
  trans _ _ _ first second := ⟨second.1.trans first.1, first.2 ∘ second.2⟩

theorem SparesUser.unrequested {α : Type} {p : Py K α} (spares : SparesUser p) :
    Keeps Unrequested p := fun s =>
  ⟨congrArg UserSide.isStartup (spares s), fun requested =>
    (congrArg UserSide.forceInterrupt (spares s)).symm.trans requested⟩

theorem perform_unrequested (s : Debugger K) (action : Action) :
    Unrequested s (s.perform action) := by
  cases action with
  | setSignal thread signal =>
      change Unrequested s (s.setSignal thread signal)
      unfold Debugger.setSignal
      split <;> exact ⟨rfl, id⟩
  | _ => exact ⟨rfl, id⟩

theorem runCallback_unrequested (site : CallSite) (callback : Callback) (threadId : Int) :
    Keeps Unrequested (runCallback u site callback threadId) := by
  have all (actions : List Action) (s : Debugger K) :
      Unrequested s (s.performAll actions) := by
    induction actions generalizing s with
    | nil => exact refl_of Unrequested s
    | cons action rest ih => exact trans_of Unrequested (perform_unrequested s action) (ih _)
  refine Keeps.bind (Keeps.modify fun _ => ⟨rfl, id⟩) fun _ => Keeps.get.bind fun s => ?_
  refine Keeps.bind (Keeps.modify (all _)) fun _ => ?_
  split
  · exact Keeps.pure _
  · exact Keeps.throw _

theorem setResume_unrequested (resume : Bool) :
    Keeps Unrequested (modify (·.setResume resume) : Py K Unit) :=
  Keeps.modify fun _ => ⟨rfl, id⟩

theorem setForwardSignal_unrequested (forwardSignal : Bool) :
    Keeps Unrequested (modify (·.setForwardSignal forwardSignal) : Py K Unit) :=
  Keeps.modify fun _ => ⟨rfl, id⟩

theorem handleBreakpoints_unrequested (threadId : Int) :
    Keeps Unrequested (handleBreakpoints k u threadId) := by
  refine Keeps.get.bind fun s => ?_
  split
  · exact Keeps.modify fun _ => ⟨rfl, id⟩
  · refine (SparesUser.unrequested (findHit_sparesUser _ _ _)).bind fun hit => ?_
    split
    · refine Keeps.bind (Keeps.modify fun _ => ⟨rfl, id⟩) fun _ => Keeps.get.bind fun s => ?_
      split
      · exact runCallback_unrequested _ _ _
      · exact setResume_unrequested _
    · exact Keeps.pure _

theorem handleEvent_unrequested (pid : Int) (event : Nat) (results : List ThreadStatus) :
    Keeps Unrequested (handleEvent k pid event results) := by
  refine Keeps.ite (fun _ => Keeps.get.bind fun s => ?_) fun _ =>
    Keeps.ite (fun _ => setForwardSignal_unrequested _) fun _ => Keeps.pure _
  refine Keeps.bind (Keeps.bind ?_ fun _ => ?_) fun _ => setForwardSignal_unrequested _
  · exact Keeps.ite (fun _ => Keeps.pure _) fun _ =>
      SparesUser.unrequested (osWaitpid_sparesUser _)
  · exact SparesUser.unrequested (registerNewThread_sparesUser _)

theorem finishStep_unrequested : Keeps Unrequested (finishStep : Py K Unit) := by
  apply Keeps.modify
  intro s
  split <;> exact ⟨rfl, id⟩

theorem internalSignalHandler_unrequested (pid : Int) (signum : Nat)
    (results : List ThreadStatus) (status : Nat) :
    Keeps Unrequested (internalSignalHandler k u pid signum results status) := by
  refine Keeps.get.bind fun s => Keeps.ite (fun _ => ?_) fun _ => Keeps.ite (fun _ => ?_) fun _ =>
    Keeps.ite (fun _ => ?_) fun _ => Keeps.pure _
  · exact (handleSyscall_keeps (fun _ _ => Keeps.modify fun _ => ⟨rfl, id⟩)
      (setResume_unrequested _) runCallback_unrequested _).bind fun _ =>
        setForwardSignal_unrequested _
  · exact Keeps.modify fun _ => ⟨rfl, fun requested => by cases requested⟩
  · exact (handleBreakpoints_unrequested _).bind fun _ => finishStep_unrequested.bind fun _ =>
      handleEvent_unrequested _ _ _

theorem handleStop_unrequested (st : ThreadStatus) (signum : Nat) :
    Keeps Unrequested (handleStop u st signum) := by
  refine Keeps.bind (Keeps.get.bind fun _ => Keeps.pure _) fun thread => ?_
  split
  · exact Keeps.pure _
  · refine Keeps.bind (Keeps.modify fun s => ?_) fun _ => Keeps.bind ?_ fun _ =>
      Keeps.modify fun s => ?_
    · exact ⟨rfl, id⟩
    · exact handleSignal_keeps (fun _ _ => Keeps.modify fun _ => ⟨rfl, id⟩)
        (setResume_unrequested _) runCallback_unrequested _ _
    · split <;> exact ⟨rfl, id⟩

theorem handleChange_unrequested (st : ThreadStatus) (results : List ThreadStatus) :
    Keeps Unrequested (handleChange k u st results) := by
  have exits (exitCode exitSignal : Option Nat) :
      Keeps Unrequested (handleExit st.tid exitCode exitSignal : Py K Unit) :=
    handleExit_keeps (fun _ _ _ => SparesUser.unrequested (unregisterThread_sparesUser _ _ _)) _ _ _
  exact (setForwardSignal_unrequested _).bind fun _ => Keeps.get.bind fun s =>
    Keeps.ite (fun _ => Keeps.ite (fun _ => Keeps.pure _) fun _ =>
      (internalSignalHandler_unrequested _ _ _ _).bind fun _ => handleStop_unrequested _ _)
    fun _ => Keeps.ite (fun _ => exits _ _) fun _ => Keeps.ite (fun _ => exits _ _) fun _ =>
      Keeps.pure _

theorem collectBatch_unrequested (fuel : Nat) : Keeps Unrequested (collectBatch k fuel) := by
  refine Keeps.bind (Keeps.get.bind fun s => ?_) fun results =>
    Keeps.bind (Keeps.modify fun _ => ⟨rfl, id⟩) fun _ => Keeps.pure _
  split
  · exact Keeps.throw _
  · exact Keeps.bind (Keeps.modify fun _ => ⟨rfl, id⟩) fun _ => Keeps.pure _
  · exact Keeps.bind (Keeps.modify fun _ => ⟨rfl, id⟩) fun _ => Keeps.pure _

/-- A `SIGSTOP` is no request where no interrupt is requested. -/
theorem internalSignalHandler_unrequested_sigstop {s : Debugger K} (pid : Int)
    (results : List ThreadStatus) (status : Nat)
    (unrequested : s.resumeContext.forceInterrupt = false) :
    (internalSignalHandler k u pid SIGSTOP results status).run s = .ok () s := by
  unfold internalSignalHandler
  rw [EStateM.run_bind, EStateM.run_get]
  change (if SIGSTOP = syscallSigtrap then _ else _ : Py K Unit).run s = _
  rw [if_neg (by decide), if_neg (by simp [unrequested]), if_neg (by decide)]
  rfl

/-- The first `SIGSTOP` answers the request. -/
theorem internalSignalHandler_sigstop {s t : Debugger K} {pid : Int} {results : List ThreadStatus}
    {status : Nat}
    (handled : (internalSignalHandler k u pid SIGSTOP results status).run s = .ok () t) :
    t.resumeContext.forceInterrupt = false := by
  cases requested : s.resumeContext.forceInterrupt with
  | false =>
      have same := internalSignalHandler_unrequested_sigstop (k := k) (u := u) pid results
        status requested
      cases same.symm.trans handled
      exact requested
  | true =>
      unfold internalSignalHandler at handled
      rw [EStateM.run_bind, EStateM.run_get] at handled
      change (if SIGSTOP = syscallSigtrap then _ else _ : Py K Unit).run s = _ at handled
      rw [if_neg (by decide), if_pos ⟨rfl, requested⟩] at handled
      cases handled
      rfl

theorem handleChange_sigstop {s t : Debugger K} {st : ThreadStatus} {results : List ThreadStatus}
    (stopped : sigstopped st = true) (startup : s.resumeContext.isStartup = false)
    (handled : (handleChange k u st results).run s = .ok () t) :
    t.resumeContext.forceInterrupt = false := by
  obtain ⟨wif, signum⟩ := Bool.and_eq_true_iff.mp stopped
  obtain ⟨_, _, ⟨⟩, handled⟩ := ok_of_bind handled
  rw [EStateM.run_bind, EStateM.run_get] at handled
  change (if wifstopped st.status then _ else _ : Py K Unit).run _ = _ at handled
  rw [if_pos wif, if_neg (by simpa [Debugger.setForwardSignal] using startup)] at handled
  obtain ⟨_, r, answered, stop⟩ := ok_of_bind handled
  rw [of_decide_eq_true signum] at answered
  have spent := internalSignalHandler_sigstop answered
  cases requested : t.resumeContext.forceInterrupt with
  | false => rfl
  | true =>
      have before := ((handleStop_unrequested _ _).of_ok stop).request requested
      rw [spent] at before
      cases before

/-! ### The two threads -/

inductive Polling where
  /-- It waits for a command. -/
  | idle
  /-- At the head of the loop of `__threaded_wait`, or about to take that command -/
  | looping
  /-- Before `debugging_interface.wait()` -/
  | waiting
  /-- In `manage_change`, with what is left of a batch -/
  | handling (batch todo : List ThreadStatus)

inductive Main where
  /-- No `interrupt` is being executed. -/
  | free
  /-- The process was found running. -/
  | checked
  /-- `force_interrupt` is set. -/
  | flagged
  /-- `SIGSTOP` is sent. -/
  | sent
  /-- The process was found running after the first wait. -/
  | again
  deriving DecidableEq

/-- `interrupt` has set the flag and has not returned. -/
abbrev Main.Requesting (main : Main) : Prop := main = .flagged ∨ main = .sent ∨ main = .again

structure Session (K : Type) where
  debugger : Debugger K
  isRunning : Bool
  polling : Polling
  main : Main
  /-- History: the statuses handled since the flag was last set -/
  handled : List ThreadStatus

inductive Moment where
  /-- `cont`, or `step` of a thread -/
  | resume (stepped : Option Int)
  /-- `if not self.running: return` -/
  | check
  | setForceInterrupt
  /-- `os.kill(self.process_id, SIGSTOP)` -/
  | kill
  /-- `_join_and_check_status` of `wait` -/
  | join
  | joinAgain
  /-- `if self.threads[0].dead: break`, and `resume` is set -/
  | look
  /-- `wait_all_and_update_regs` returns. -/
  | wait (fuel : Nat)
  /-- `_handle_change` of one status -/
  | handle
  /-- `if self.resume_context.resume`, and what follows -/
  | settle

namespace Session

variable (k : Kernel K) (u : UserCode K)

/-- The main thread resumes the stopped process and queues a wait. -/
def resume (s : Session K) (stepped : Option Int) : Option (Session K) :=
  if s.main = .free ∧ s.isRunning = false ∧ processDied s.debugger = false then
    match s.polling, (stepped.elim (cont k) (Ptrace.step k)).run s.debugger with
    | .idle, .ok _ t => some { s with debugger := t, isRunning := true, polling := .looping }
    | _, _ => none
  else
    none

def check (s : Session K) : Option (Session K) :=
  if s.main = .free ∧ s.isRunning = true ∧ processDied s.debugger = false then
    some { s with main := .checked }
  else
    none

def setForceInterrupt (s : Session K) : Option (Session K) :=
  if s.main = .checked then
    some { s with
      main := .flagged
      debugger := { s.debugger with
        resumeContext := { s.debugger.resumeContext with forceInterrupt := true } }
      handled := [] }
  else
    none

/-- What the signal does is up to the kernel. -/
def kill (sigstop : K → K) (s : Session K) : Option (Session K) :=
  if s.main = .flagged then
    some { s with
      main := .sent
      debugger := { s.debugger with
        world := { s.debugger.world with os := sigstop s.debugger.world.os } } }
  else
    none

def join (s : Session K) : Option (Session K) :=
  match s.main, s.polling with
  | .sent, .idle =>
      if processDied s.debugger ∨ s.isRunning = false then some { s with main := .free }
      else some { s with main := .again, polling := .looping }
  | _, _ => none

def joinAgain (s : Session K) : Option (Session K) :=
  match s.main, s.polling with
  | .again, .idle => some { s with main := .free }
  | _, _ => none

def look (s : Session K) : Option (Session K) :=
  match s.polling, s.debugger.threads.head? with
  | .looping, some leader =>
      if leader.dead then some { s with polling := .idle, isRunning := false }
      else some { s with polling := .waiting, debugger := s.debugger.setResume true }
  | _, _ => none

def wait (s : Session K) (fuel : Nat) : Option (Session K) :=
  match s.polling, (collectBatch k fuel).run s.debugger with
  | .waiting, .ok batch t =>
      some { s with debugger := t, polling := .handling batch (statuses batch) }
  | _, _ => none

def handle (s : Session K) : Option (Session K) :=
  match s.polling with
  | .handling batch (st :: todo) =>
      match (handleChange k u st batch).run s.debugger with
      | .ok _ t => some { s with
          debugger := t, polling := .handling batch todo, handled := s.handled ++ [st] }
      | .error _ _ => none
  | _ => none

def settle (s : Session K) : Option (Session K) :=
  match s.polling with
  | .handling _ [] =>
      if s.debugger.resumeContext.resume then
        match (cont k).run s.debugger with
        | .ok _ t => some { s with debugger := t, polling := .looping }
        | .error _ _ => none
      else
        some { s with polling := .idle, isRunning := false }
  | _ => none

def step (sigstop : K → K) (s : Session K) : Moment → Option (Session K)
  | .resume stepped => s.resume k stepped
  | .check => s.check
  | .setForceInterrupt => s.setForceInterrupt
  | .kill => s.kill sigstop
  | .join => s.join
  | .joinAgain => s.joinAgain
  | .look => s.look
  | .wait fuel => s.wait k fuel
  | .handle => s.handle k u
  | .settle => s.settle k

end Session

/-- A run ends where a command of the polling thread raises. -/
def session (k : Kernel K) (u : UserCode K) (sigstop : K → K) : Machine (Session K) Moment :=
  ⟨Session.step k u sigstop⟩

/-- A process has stopped, and the main thread has called nothing yet. -/
def Session.stopped (debugger : Debugger K) : Session K where
  debugger := debugger
  isRunning := false
  polling := .idle
  main := .free
  handled := []

/-! ### Interrupts that are answered -/

/-- No interrupt is requested, and a `SIGSTOP` that is still to come will not be taken for one:
it neither stops the process nor changes anything else. -/
structure Spent (k : Kernel K) (u : UserCode K) (s : Debugger K) : Prop where
  request : s.resumeContext.forceInterrupt = false
  pending : ∀ pid results status,
    (internalSignalHandler k u pid SIGSTOP results status).run s = .ok () s

/-- The process does not stop for a reason of its own while `interrupt` is being executed:
where it is not resumed after a batch, a `SIGSTOP` has been handled since the flag was set. -/
def Undisturbed (s : Session K) : Moment → Prop
  | .settle => s.debugger.resumeContext.resume = false →
      s.main ≠ .checked ∧ (s.main.Requesting → ∃ st ∈ s.handled, sigstopped st = true)
  | _ => True

instance (s : Session K) : ∀ moment, Decidable (Undisturbed s moment)
  | .settle => inferInstanceAs (Decidable (s.debugger.resumeContext.resume = false →
      s.main ≠ .checked ∧ (s.main.Requesting → ∃ st ∈ s.handled, sigstopped st = true)))
  | .resume _ | .check | .setForceInterrupt | .kill | .join | .joinAgain | .look | .wait _
  | .handle => .isTrue trivial

/-- What holds between two steps: a request is unanswered only while `interrupt` waits for the
polling thread, and then no `SIGSTOP` was handled. -/
structure Answered (s : Session K) : Prop where
  startup : s.debugger.resumeContext.isStartup = false
  stopped : s.polling = .idle → s.isRunning = false
  request : s.debugger.resumeContext.forceInterrupt = true →
    s.main.Requesting ∧ (∀ st ∈ s.handled, sigstopped st = false) ∧ s.polling ≠ .idle
  checked : s.main = .checked → s.polling ≠ .idle

/-- The process has died, and nothing is left to be done. -/
structure Ended (s : Session K) : Prop where
  polling : s.polling = .idle
  stopped : s.isRunning = false
  died : processDied s.debugger = true

variable {s t : Session K} {sigstop : K → K} {moment : Moment}

/-! ### What a step has done -/

namespace Session

theorem resume_some {stepped : Option Int} (resumed : s.resume k stepped = some t) :
    s.main = .free ∧ s.polling = .idle ∧ processDied s.debugger = false ∧ ∃ d,
      Unrequested s.debugger d ∧
        t = { s with debugger := d, isRunning := true, polling := .looping } := by
  obtain ⟨⟨free, _, alive⟩, resumed⟩ := Option.ite_none_right_eq_some.mp resumed
  have spares : SparesUser (stepped.elim (cont k) (Ptrace.step k)) := by
    cases stepped with
    | none => exact cont_sparesUser
    | some threadId => exact step_sparesUser threadId
  split at resumed
  · next _ d idle returned =>
      cases resumed
      exact ⟨free, idle, alive, d, (SparesUser.unrequested spares).of_ok returned, rfl⟩
  · cases resumed

theorem join_some (joined : s.join = some t) :
    s.polling = .idle ∧ (t = { s with main := .free } ∨
      s.isRunning = true ∧ t = { s with main := .again, polling := .looping }) := by
  unfold join at joined
  split at joined
  · next _ idle =>
      split at joined
      · cases joined
        exact ⟨idle, .inl rfl⟩
      · next running =>
          cases joined
          exact ⟨idle, .inr ⟨by simpa using fun stopped => running (.inr stopped), rfl⟩⟩
  · cases joined

theorem joinAgain_some (joined : s.joinAgain = some t) :
    s.polling = .idle ∧ t = { s with main := .free } := by
  unfold joinAgain at joined
  split at joined
  · next _ idle =>
      cases joined
      exact ⟨idle, rfl⟩
  · cases joined

theorem look_some (looked : s.look = some t) :
    s.polling = .looping ∧
      (processDied s.debugger = true ∧ t = { s with polling := .idle, isRunning := false } ∨
        t = { s with polling := .waiting, debugger := s.debugger.setResume true }) := by
  unfold look at looked
  split at looked
  · next leader looping first =>
      refine ⟨looping, ?_⟩
      split at looked
      · next dead =>
          cases looked
          exact .inl ⟨by rw [processDied, first]; exact dead, rfl⟩
      · cases looked
        exact .inr rfl
  · cases looked

theorem wait_some {fuel : Nat} (waited : s.wait k fuel = some t) :
    s.polling = .waiting ∧ ∃ batch d, Unrequested s.debugger d ∧
      t = { s with debugger := d, polling := .handling batch (statuses batch) } := by
  unfold wait at waited
  split at waited
  · next batch d waiting returned =>
      cases waited
      exact ⟨waiting, batch, d, (collectBatch_unrequested fuel).of_ok returned, rfl⟩
  · cases waited

theorem handle_some (handled : s.handle k u = some t) :
    ∃ batch st todo d, s.polling = .handling batch (st :: todo) ∧
      (handleChange k u st batch).run s.debugger = .ok () d ∧
      t = { s with
        debugger := d, polling := .handling batch todo, handled := s.handled ++ [st] } := by
  unfold handle at handled
  split at handled
  · next batch st todo polling =>
      split at handled
      · next d returned =>
          cases handled
          exact ⟨batch, st, todo, d, polling, returned, rfl⟩
      · cases handled
  · cases handled

theorem settle_some (settled : s.settle k = some t) :
    (∃ batch, s.polling = .handling batch []) ∧
      ((∃ d, Unrequested s.debugger d ∧ t = { s with debugger := d, polling := .looping }) ∨
        s.debugger.resumeContext.resume = false ∧
          t = { s with polling := .idle, isRunning := false }) := by
  unfold settle at settled
  split at settled
  · next batch polling =>
      refine ⟨⟨batch, polling⟩, ?_⟩
      split at settled
      · split at settled
        · next d returned =>
            cases settled
            exact .inl ⟨d, (SparesUser.unrequested cont_sparesUser).of_ok returned, rfl⟩
        · cases settled
      · next stays =>
          cases settled
          exact .inr ⟨by simpa using stays, rfl⟩
  · cases settled

end Session

theorem Ended.step (ended : Ended s) (stepped : s.step k u sigstop moment = some t) : Ended t := by
  obtain ⟨polling, stopped, died⟩ := ended
  have busy {p : Polling} (other : s.polling = p) (apart : p ≠ .idle) : Ended t :=
    absurd (other.symm.trans polling) apart
  cases moment with
  | resume command =>
      obtain ⟨_, _, alive, _⟩ := Session.resume_some stepped
      rw [died] at alive
      cases alive
  | check =>
      obtain ⟨⟨_, running, _⟩, _⟩ := Option.ite_none_right_eq_some.mp stepped
      rw [stopped] at running
      cases running
  | setForceInterrupt =>
      obtain ⟨_, stepped⟩ := Option.ite_none_right_eq_some.mp stepped
      cases stepped
      exact ⟨polling, stopped, died⟩
  | kill =>
      obtain ⟨_, stepped⟩ := Option.ite_none_right_eq_some.mp stepped
      cases stepped
      exact ⟨polling, stopped, died⟩
  | join =>
      rcases Session.join_some stepped with ⟨_, rfl | ⟨running, _⟩⟩
      · exact ⟨polling, stopped, died⟩
      · rw [stopped] at running
        cases running
  | joinAgain =>
      obtain ⟨_, rfl⟩ := Session.joinAgain_some stepped
      exact ⟨polling, stopped, died⟩
  | look => exact busy (Session.look_some stepped).1 (by simp)
  | wait fuel => exact busy (Session.wait_some stepped).1 (by simp)
  | handle =>
      obtain ⟨_, _, _, _, handling, _⟩ := Session.handle_some stepped
      exact busy handling (by simp)
  | settle =>
      obtain ⟨⟨_, handling⟩, _⟩ := Session.settle_some stepped
      exact busy handling (by simp)

/-- The debugger does something that requests no interrupt, while the polling thread is busy. -/
theorem Answered.busy {d : Debugger K} {polling : Polling} {isRunning : Bool}
    (answered : Answered s) (unrequested : Unrequested s.debugger d) (busy : polling ≠ .idle) :
    Answered { s with debugger := d, polling, isRunning } where
  startup := unrequested.startup.trans answered.startup
  stopped idle := absurd idle busy
  request requested :=
    let ⟨requesting, handled, _⟩ := answered.request (unrequested.request requested)
    ⟨requesting, handled, busy⟩
  checked _ := busy

/-- A request is unanswered only while `interrupt` is being executed. -/
theorem Answered.spent (answered : Answered s) (returned : ¬ s.main.Requesting) :
    s.debugger.resumeContext.forceInterrupt = false := by
  cases requested : s.debugger.resumeContext.forceInterrupt with
  | false => rfl
  | true => exact absurd (answered.request requested).1 returned

/-- Each step of either thread keeps it so, unless the process dies. -/
theorem Answered.step (answered : Answered s) (undisturbed : Undisturbed s moment)
    (stepped : s.step k u sigstop moment = some t) : Answered t ∨ Ended t := by
  cases moment with
  | resume command =>
      left
      obtain ⟨_, _, _, d, unrequested, rfl⟩ := Session.resume_some stepped
      exact answered.busy unrequested (by simp)
  | check =>
      left
      obtain ⟨⟨free, running, _⟩, stepped⟩ := Option.ite_none_right_eq_some.mp stepped
      cases stepped
      have spent := answered.spent (by simp [free])
      have busy : s.polling ≠ .idle := fun idle => by simp [answered.stopped idle] at running
      exact { startup := answered.startup
              stopped := answered.stopped
              request := fun requested => by simp [spent] at requested
              checked := fun _ => busy }
  | setForceInterrupt =>
      left
      obtain ⟨checked, stepped⟩ := Option.ite_none_right_eq_some.mp stepped
      cases stepped
      exact { startup := answered.startup
              stopped := answered.stopped
              request := fun _ => ⟨.inl rfl, by simp, answered.checked checked⟩
              checked := fun checked => by cases checked }
  | kill =>
      left
      obtain ⟨flagged, stepped⟩ := Option.ite_none_right_eq_some.mp stepped
      cases stepped
      refine ⟨answered.startup, answered.stopped, fun requested => ?_, by simp⟩
      exact ⟨.inr (.inl rfl), (answered.request requested).2⟩
  | join =>
      left
      obtain ⟨idle, rfl | ⟨running, _⟩⟩ := Session.join_some stepped
      · refine ⟨answered.startup, answered.stopped, fun requested => ?_, by simp⟩
        exact absurd idle (answered.request requested).2.2
      · rw [answered.stopped idle] at running
        cases running
  | joinAgain =>
      left
      obtain ⟨idle, rfl⟩ := Session.joinAgain_some stepped
      refine ⟨answered.startup, answered.stopped, fun requested => ?_, by simp⟩
      exact absurd idle (answered.request requested).2.2
  | look =>
      obtain ⟨_, ⟨died, rfl⟩ | rfl⟩ := Session.look_some stepped
      · exact .inr ⟨rfl, rfl, died⟩
      · exact .inl (answered.busy (setResume_unrequested true s.debugger) (by simp))
  | wait fuel =>
      left
      obtain ⟨_, batch, d, unrequested, rfl⟩ := Session.wait_some stepped
      exact answered.busy unrequested (by simp)
  | handle =>
      left
      obtain ⟨batch, st, todo, d, polling, handled, rfl⟩ := Session.handle_some stepped
      have unrequested : Unrequested s.debugger d :=
        (handleChange_unrequested st batch).of_ok handled
      have busy : Answered { s with debugger := d, polling := .handling batch todo } :=
        answered.busy unrequested (by simp)
      refine ⟨busy.startup, busy.stopped, fun requested => ?_, busy.checked⟩
      obtain ⟨requesting, before, apart⟩ := busy.request requested
      refine ⟨requesting, fun other member => ?_, apart⟩
      rcases List.mem_append.mp member with earlier | last
      · exact before other earlier
      · obtain rfl := List.mem_singleton.mp last
        cases sigstop : sigstopped other with
        | false => rfl
        | true =>
            rw [handleChange_sigstop sigstop answered.startup handled] at requested
            cases requested
  | settle =>
      left
      obtain ⟨_, ⟨d, unrequested, rfl⟩ | ⟨stays, rfl⟩⟩ := Session.settle_some stepped
      · exact answered.busy unrequested (by simp)
      · obtain ⟨unchecked, sigstops⟩ := undisturbed stays
        refine ⟨answered.startup, fun _ => rfl, fun requested => ?_,
          fun checked => absurd checked unchecked⟩
        obtain ⟨requesting, none_, _⟩ := answered.request requested
        obtain ⟨st, member, sigstop⟩ := sigstops requesting
        rw [none_ st member] at sigstop
        cases sigstop

/-- After an interrupt that was not disturbed the stopped process is not stopped by it again. -/
theorem interrupt_spent {d : Debugger K} {moments : List Moment} {final : Session K}
    (unrequested : d.resumeContext.forceInterrupt = false)
    (started : d.resumeContext.isStartup = false)
    (undisturbed : (session k u sigstop).Meets Undisturbed (.stopped d) moments)
    (reached : (session k u sigstop).run (.stopped d) moments = some final)
    (returned : final.main = .free)
    (alive : processDied final.debugger = false) : Spent k u final.debugger := by
  have initial : Answered (.stopped d) :=
    { startup := started
      stopped := fun _ => rfl
      request := fun requested => absurd requested (by simp [Session.stopped, unrequested])
      checked := fun checked => by cases checked }
  have after : Answered final ∨ Ended final := by
    refine Machine.run_invariant (motive := fun s => Answered s ∨ Ended s) ?_ (.inl initial)
      undisturbed reached
    rintro s moment t (answered | ended) here stepped
    · exact answered.step here stepped
    · exact .inr (ended.step stepped)
  rcases after with answered | ended
  · have spent := answered.spent (by simp [returned])
    exact ⟨spent, fun pid results status =>
      internalSignalHandler_unrequested_sigstop pid results status spent⟩
  · rw [ended.died] at alive
    cases alive

/-! ### One thread, and a signal that stops it -/

/-- Thread 1 is traced, and a signal 10 stops the process. -/
def signalCaught (reports : List (Option ThreadStatus)) : Debugger Script :=
  stateAfter (registerNewThread scripted 1 >>= fun _ => catchSignal 10 none false)
    (.initial (twoThreads reports))

/-- The kernel reports the `SIGSTOP` next. -/
def reportSigstop (os : Script) : Script :=
  { os with reports := [some ⟨1, 0x137f, .delivery⟩, none] }

/-- The `SIGSTOP` is handled before `interrupt` returns. -/
theorem interrupt_spent_sigstop : ∃ final : Session Script,
    (session scripted idle reportSigstop).run (.stopped (signalCaught []))
        [.resume none, .check, .setForceInterrupt, .kill, .look, .wait 2, .handle, .settle, .join] =
      some final ∧ final.isRunning = false ∧ Spent scripted idle final.debugger := by
  have returns : ∃ final : Session Script,
      (session scripted idle reportSigstop).run (.stopped (signalCaught []))
          [.resume none, .check, .setForceInterrupt, .kill, .look, .wait 2, .handle, .settle,
            .join] = some final ∧
        final.main = .free ∧ final.isRunning = false ∧ processDied final.debugger = false :=
    Machine.exists_of_run (by decide +kernel)
  obtain ⟨final, reached, returned, stopped, alive⟩ := returns
  exact ⟨final, reached, stopped, interrupt_spent (by decide +kernel) (by decide +kernel)
    (by decide +kernel) reached returned alive⟩

/-- Signal 10 stops the process after `interrupt` has found it running: the flag is set and
`SIGSTOP` is sent to a process that is stopped already, and the next `cont` ends at once. -/
theorem interrupt_pending : ∃ final : Session Script,
    (session scripted idle reportSigstop).run
        (.stopped (signalCaught [some ⟨1, 0x0a7f, .delivery⟩, none]))
        [.resume none, .check, .look, .wait 2, .handle, .settle, .setForceInterrupt, .kill, .join] =
      some final ∧
      final.main = .free ∧ final.isRunning = false ∧ processDied final.debugger = false ∧
      ¬ Spent scripted idle final.debugger := by
  have returns : ∃ final : Session Script,
      (session scripted idle reportSigstop).run
          (.stopped (signalCaught [some ⟨1, 0x0a7f, .delivery⟩, none]))
          [.resume none, .check, .look, .wait 2, .handle, .settle, .setForceInterrupt, .kill,
            .join] = some final ∧
        final.main = .free ∧ final.isRunning = false ∧ processDied final.debugger = false ∧
        final.debugger.resumeContext.forceInterrupt = true :=
    Machine.exists_of_run (by decide +kernel)
  obtain ⟨final, reached, returned, stopped, alive, requested⟩ := returns
  refine ⟨final, reached, returned, stopped, alive, fun spent => ?_⟩
  rw [spent.request] at requested
  cases requested

end Libdebug.InternalDebugger
