import Libdebug.Ptrace.Statuses
import Libdebug.Ptrace.UserSide

/-!
`InternalDebugger.step`: one thread is single-stepped, and the loop of `__threaded_wait`
follows. The loop resumes every thread unless the status handler has vetoed that, and for a
step it does so only when it sees a stop by `SIGTRAP`, which also clears `is_a_step`.
-/

namespace Libdebug.InternalDebugger

open Libdebug.Foundation Libdebug.Cffi Libdebug.Ptrace

variable {K : Type} (k : Kernel K) (u : UserCode K)

/-- `__threaded_wait`: the fuel bounds the rounds of its loop. -/
def threadedWait (fuel : Nat) : Nat → Py K Unit
  | 0 => throw .hang
  | rounds + 1 => do
      let s ← get
      match s.threads.head? with
      | none => raise .indexError
      | some thread =>
          if thread.dead then
            -- all threads are dead
            pure ()
          else do
            modify (·.setResume true)
            wait k u fuel
            let s ← get
            if s.resumeContext.resume then do
              cont k
              threadedWait fuel rounds
            else
              pure ()

/-- `__threaded_step`, then `__threaded_wait`. -/
def step (rounds fuel : Nat) (threadId : Int) : Py K Unit := do
  Ptrace.step k threadId
  threadedWait k u fuel rounds

/-- The events by which threads are let run, newest first. -/
def resumptions (log : List Cffi.Event) : List Cffi.Event :=
  log.filterMap fun
    | event@(.stepped ..) | event@(.resumed ..) => some event
    | _ => none

/-- The thread has been let run for one instruction, and its stop has been collected; no
thread has been resumed, nor has `cont` tried to; and the step is over. -/
structure OneStep (threadId : Int) (s t : Debugger K) : Prop where
  once : ∃ signal memory,
    resumptions t.world.log = .stepped threadId signal memory :: resumptions s.world.log
  stopped : ∃ st : ThreadStatus, st.tid = threadId ∧
    (collected s.world.log).count st < (collected t.world.log).count st
  notResumed : t.applied = s.applied
  ended : t.resumeContext.isAStep = false

/-- A stop by `SIGTRAP`: the trap of the step itself, or a `PTRACE_EVENT_*` stop. -/
def trapStatus (status : Nat) : Bool := wifstopped status && wstopsig status = SIGTRAP

def isTrap (st : ThreadStatus) : Bool := st.tid ≠ -1 && trapStatus st.status

/-- The thread that `__threaded_wait` takes for the whole process. -/
def leaderAlive (s : Debugger K) : Prop := ∃ thread, s.threads.head? = some thread ∧ !thread.dead

/-! ### What is decided about a step -/

/-- From one state to the next a stop by `SIGTRAP` has been seen, or none: it ends the step,
and vetoes that the threads are resumed. -/
structure Decides (trapped : Bool) (s t : Debugger K) : Prop where
  startup : t.resumeContext.isStartup = s.resumeContext.isStartup
  step : t.resumeContext.isAStep = (s.resumeContext.isAStep && !trapped)
  veto : s.resumeContext.resume = false ∨ s.resumeContext.isAStep = true ∧ trapped = true →
    t.resumeContext.resume = false

abbrev Steady (s t : Debugger K) : Prop := Decides false s t

variable {k u} {s t r : Debugger K} {threadId : Int}

theorem Decides.trans {one other : Bool} (first : Decides one s t) (second : Decides other t r) :
    Decides (one || other) s r where
  startup := second.startup.trans first.startup
  step := by rw [second.step, first.step, Bool.not_or, Bool.and_assoc]
  veto := by
    intro vetoed
    apply second.veto
    by_cases before : s.resumeContext.resume = false ∨ s.resumeContext.isAStep = true ∧ one = true
    · exact .inl (first.veto before)
    · obtain ⟨resumes, untrapped⟩ := not_or.mp before
      obtain ⟨stepping, trapped⟩ := vetoed.resolve_left resumes
      have unseen : one = false := (Bool.not_eq_true _).mp fun seen => untrapped ⟨stepping, seen⟩
      rw [unseen, Bool.false_or] at trapped
      exact .inr ⟨by simp [first.step, stepping, unseen], trapped⟩

theorem steady_of_same (same : t.resumeContext.isStartup = s.resumeContext.isStartup ∧
    t.resumeContext.isAStep = s.resumeContext.isAStep ∧
    t.resumeContext.resume = s.resumeContext.resume) : Steady s t where
  startup := same.1
  step := by simp [same.2.1]
  veto vetoed := same.2.2.trans (vetoed.resolve_right (by simp))

instance : IsPreorder (Debugger K) Steady where
  refl _ := steady_of_same ⟨rfl, rfl, rfl⟩
  trans _ _ _ first second := first.trans second

theorem steady_of_spares {α : Type} {F : Finset Field} {p : Py K α} (spares : SparesUser p)
    (touches : Touches F p) (apart : .stepping ∉ F) : Keeps Steady p := by
  intro s
  have same : (stateAfter p s).userSide = s.userSide := spares s
  exact steady_of_same ⟨congrArg (·.isStartup) same, touches s .stepping apart,
    congrArg (·.resume) same⟩

theorem setResume_steady : Keeps Steady (modify (·.setResume false) : Py K Unit) :=
  Keeps.modify fun _ => ⟨rfl, by simp [Debugger.setResume], fun _ => rfl⟩

theorem setForwardSignal_steady (forwardSignal : Bool) :
    Keeps Steady (modify (·.setForwardSignal forwardSignal) : Py K Unit) :=
  Keeps.modify fun _ => steady_of_same ⟨rfl, rfl, rfl⟩

theorem updateHandler_steady (number : Nat) (f : SyscallHandler → SyscallHandler) :
    Keeps Steady (modify (·.updateHandler number f) : Py K Unit) :=
  Keeps.modify fun _ => steady_of_same ⟨rfl, rfl, rfl⟩

theorem updateCatcher_steady (number : Nat) (f : SignalCatcher → SignalCatcher) :
    Keeps Steady (modify (·.updateCatcher number f) : Py K Unit) :=
  Keeps.modify fun _ => steady_of_same ⟨rfl, rfl, rfl⟩

theorem perform_steady (s : Debugger K) (action : Action) : Steady s (s.perform action) := by
  apply steady_of_same
  cases action with
  | setSignal thread signal =>
      simp only [Debugger.perform, Debugger.setSignal]
      split <;> exact ⟨rfl, rfl, rfl⟩
  | _ => exact ⟨rfl, rfl, rfl⟩

theorem runCallback_steady (site : CallSite) (callback : Callback) (threadId : Int) :
    Keeps Steady (runCallback u site callback threadId) := by
  intro s
  rw [stateAfter_runCallback]
  have performs (actions : List Action) (t : Debugger K) : Steady t (t.performAll actions) := by
    induction actions generalizing t with
    | nil => exact refl_of Steady t
    | cons action rest ih => exact trans_of Steady (perform_steady t action) (ih _)
  have noted : Steady s (s.noteCall (site, threadId)) := steady_of_same ⟨rfl, rfl, rfl⟩
  exact trans_of Steady noted (performs _ _)

theorem handleBreakpoints_steady (threadId : Int) :
    Keeps Steady (handleBreakpoints k u threadId) := by
  refine Keeps.get.bind fun s => ?_
  split
  · apply Keeps.modify
    exact fun _ => ⟨rfl, by simp [Debugger.setResume, Debugger.setForwardSignal], fun _ => rfl⟩
  · apply Keeps.bind
    · exact steady_of_spares (findHit_sparesUser _ _ _) (findHit_touches (F := ∅) _ _ _) (by simp)
    · intro hit
      split
      · refine Keeps.bind (Keeps.modify fun _ => steady_of_same ⟨rfl, rfl, rfl⟩) fun _ =>
          Keeps.get.bind fun s => ?_
        split
        · exact runCallback_steady _ _ _
        · exact setResume_steady
      · exact Keeps.pure _

theorem handleEvent_steady (pid : Int) (event : Nat) (results : List ThreadStatus) :
    Keeps Steady (handleEvent k pid event results) := by
  refine Keeps.ite (fun _ => Keeps.get.bind fun s => ?_) fun _ =>
    Keeps.ite (fun _ => setForwardSignal_steady false) fun _ => Keeps.pure _
  refine Keeps.bind (Keeps.bind (Keeps.ite (fun _ => Keeps.pure _) fun _ => ?_) fun _ => ?_)
    fun _ => setForwardSignal_steady false
  · exact steady_of_spares (osWaitpid_sparesUser _) (osWaitpid_touches (F := ∅) _) (by simp)
  · exact steady_of_spares (registerNewThread_sparesUser _) (registerNewThread_touches _)
      (by decide)

theorem handleStop_steady (st : ThreadStatus) (signum : Nat) :
    Keeps Steady (handleStop u st signum) := by
  apply (Keeps.get.bind fun _ => Keeps.pure _ : Keeps Steady (getThreadById st.tid)).bind
  intro thread
  split
  · exact Keeps.pure _
  · refine Keeps.bind (Keeps.modify fun _ => steady_of_same ⟨rfl, rfl, rfl⟩) fun _ => ?_
    apply (handleSignal_keeps updateCatcher_steady setResume_steady runCallback_steady _ _).bind
    intro
    apply Keeps.modify
    intro s
    split
    · exact steady_of_same ⟨rfl, rfl, rfl⟩
    · exact refl_of Steady s

theorem handleExit_steady (pid : Int) (exitCode exitSignal : Option Nat) :
    Keeps Steady (handleExit pid exitCode exitSignal : Py K Unit) :=
  handleExit_keeps (fun _ _ _ => steady_of_spares (unregisterThread_sparesUser _ _ _)
    (unregisterThread_touches _ _ _) (by decide)) pid exitCode exitSignal

/-! ### One status, and the list of them -/

/-- A method that returns has decided so. -/
def Deciding (trapped : Bool) (p : Py K Unit) : Prop :=
  ∀ s t, s.resumeContext.isStartup = false → p.run s = .ok () t → Decides trapped s t

theorem Deciding.of_steady {p : Py K Unit} (steady : Keeps Steady p) : Deciding false p :=
  fun _ _ _ returned => steady.of_ok returned

theorem Deciding.bind {one other : Bool} {p q : Py K Unit} (first : Deciding one p)
    (second : Deciding other q) : Deciding (one || other) (p >>= fun _ => q) := by
  intro s t running returned
  obtain ⟨_, r, here, later⟩ := ok_of_bind returned
  have decided := first s r running here
  exact decided.trans (second r t (decided.startup.trans running) later)

theorem finishStep_deciding : Deciding true (finishStep : Py K Unit) := by
  intro s t _ returned
  cases returned
  cases stepping : s.resumeContext.isAStep with
  | true => exact ⟨by simp [stepping], by simp [stepping], by simp [stepping]⟩
  | false => exact ⟨by simp [stepping], by simp [stepping], by simp [stepping]⟩

/-- Which signals end the step. -/
theorem internalSignalHandler_deciding (pid : Int) (signum : Nat) (results : List ThreadStatus)
    (status : Nat) :
    Deciding (decide (signum = SIGTRAP)) (internalSignalHandler k u pid signum results status) := by
  intro s t running returned
  obtain ⟨_, r, got, rest⟩ := ok_of_bind returned
  cases got
  split at rest
  · rename_i isSyscall
    have other : decide (signum = SIGTRAP) = false := by
      rw [isSyscall]
      decide
    rw [other]
    have steady : Keeps Steady (handleSyscall u pid) :=
      handleSyscall_keeps updateHandler_steady setResume_steady runCallback_steady pid
    exact (steady.bind fun _ => setForwardSignal_steady false).of_ok rest
  · split at rest
    · rename_i interrupted
      have other : decide (signum = SIGTRAP) = false := by
        rw [interrupted.1]
        decide
      rw [other]
      cases rest
      exact ⟨rfl, by simp, fun _ => rfl⟩
    · split at rest
      · rename_i trap
        rw [decide_eq_true trap]
        have breakpoints := Deciding.of_steady (handleBreakpoints_steady (k := k) (u := u) pid)
        have event := Deciding.of_steady (handleEvent_steady (k := k) pid (status / 256) results)
        exact breakpoints.bind (finishStep_deciding.bind event) s t running rest
      · rename_i other
        rw [decide_eq_false other]
        cases rest
        exact refl_of Steady s

theorem handleChange_deciding (st : ThreadStatus) (results : List ThreadStatus) :
    Deciding (trapStatus st.status) (handleChange k u st results) := by
  intro s t running returned
  obtain ⟨_, r, flagged, rest⟩ := ok_of_bind returned
  cases flagged
  obtain ⟨_, _, got, rest⟩ := ok_of_bind rest
  cases got
  have noted : Steady s (s.setForwardSignal true) := steady_of_same ⟨rfl, rfl, rfl⟩
  have started : (s.setForwardSignal true).resumeContext.isStartup = false := running
  rw [← Bool.false_or (trapStatus st.status)]
  refine noted.trans ?_
  split at rest
  · rename_i stopped
    rw [if_neg (by simp [started])] at rest
    have decides := (internalSignalHandler_deciding (k := k) (u := u) st.tid
      (wstopsig st.status) results st.status).bind
      (Deciding.of_steady (handleStop_steady (u := u) st (wstopsig st.status)))
    simpa [trapStatus, stopped] using decides _ t started rest
  · rename_i stopped
    have unseen : trapStatus st.status = false := by simp [trapStatus, stopped]
    rw [unseen]
    split at rest
    · exact (handleExit_steady _ _ _).of_ok rest
    · split at rest
      · exact (handleExit_steady _ _ _).of_ok rest
      · cases rest
        exact refl_of Steady _

theorem manageChange_deciding (results : List ThreadStatus) :
    Deciding (results.any isTrap) (manageChange k u results) := by
  have each (batch : List ThreadStatus) : Deciding (batch.any (trapStatus ·.status))
      (batch.forM fun st => handleChange k u st results) := by
    induction batch with
    | nil => exact Deciding.of_steady (Keeps.pure _)
    | cons st rest ih => exact (handleChange_deciding st results).bind ih
  have same : results.any isTrap =
      (results.filter (·.tid ≠ -1)).any (trapStatus ·.status) := by
    rw [List.any_filter]
    rfl
  rw [same]
  exact each _

/-! ### Nobody is resumed while statuses are handled -/

/-- A method that lets no thread run. -/
abbrev Still {α : Type} (p : Py K α) : Prop := Leaves (fun s => resumptions s.world.log) p

theorem resumptions_of_injections {log log' : List Cffi.Event}
    (same : injections log' = injections log) : resumptions log' = resumptions log := by
  have through (events : List Cffi.Event) :
      resumptions (injections events) = resumptions events := by
    rw [resumptions, injections, List.filterMap_filterMap]
    congr 1
    funext event
    cases event <;> rfl
  rw [← through log, ← same, through]

theorem still_of_touches {α : Type} {F : Finset Field} {p : Py K α} (touches : Touches F p)
    (apart : .injections ∉ F) : Still p :=
  fun s => resumptions_of_injections (touches s .injections apart)

theorem runCallback_still (site : CallSite) (callback : Callback) (threadId : Int) :
    Still (runCallback u site callback threadId) := by
  intro s
  rw [Same, stateAfter_runCallback]
  have performs (actions : List Action) (t : Debugger K) :
      resumptions (t.performAll actions).world.log = resumptions t.world.log := by
    induction actions generalizing t with
    | nil => rfl
    | cons action rest ih =>
        refine (ih _).trans ?_
        cases action with
        | setSignal thread signal =>
            simp only [Debugger.perform, Debugger.setSignal]
            split <;> rfl
        | _ => rfl
  exact performs _ (s.noteCall (site, threadId))

theorem handleStop_still (st : ThreadStatus) (signum : Nat) : Still (handleStop u st signum) := by
  apply (Keeps.get.bind fun _ => Keeps.pure _ : Still (getThreadById st.tid : Py K _)).bind
  intro thread
  split
  · exact Keeps.pure _
  · refine Keeps.bind (Keeps.modify fun s => ?_) fun _ => Keeps.bind ?_ fun _ => ?_
    · simp only [Same, Debugger.receive]
      split <;> rfl
    · apply handleSignal_keeps _ _ runCallback_still
      · exact fun _ _ => Keeps.modify fun _ => rfl
      · exact Keeps.modify fun _ => rfl
    · exact still_of_touches (appendSignalToForward_touches _ _) (by decide)

theorem handleChange_still (st : ThreadStatus) (results : List ThreadStatus) :
    Still (handleChange k u st results) := by
  have exits (exitCode exitSignal : Option Nat) :
      Still (handleExit st.tid exitCode exitSignal : Py K Unit) :=
    handleExit_keeps (fun _ _ _ => still_of_touches (unregisterThread_touches _ _ _) (by decide))
      _ _ _
  refine (still_of_touches (setForwardSignal_touches _) (by decide)).bind fun _ =>
    Keeps.get.bind fun s => Keeps.ite (fun _ => Keeps.ite (fun _ => Keeps.pure _) fun _ => ?_)
      fun _ => Keeps.ite (fun _ => exits _ _) fun _ => Keeps.ite (fun _ => exits _ _) fun _ =>
        Keeps.pure _
  apply Keeps.bind
  · apply internalSignalHandler_keeps _ runCallback_still
    · exact fun _ _ => still_of_touches (registerNewThread_touches _) (by decide)
    · exact fun s t changes => resumptions_of_injections (changes .injections (by decide))
  · exact fun _ => handleStop_still st _

theorem wait_still (fuel : Nat) : Still (wait k u fuel) :=
  (still_of_touches (waitResults_touches fuel) (by decide)).bind fun results =>
    (still_of_touches (noteManaged_touches results) (by decide)).bind fun _ =>
      Keeps.forM fun st _ => handleChange_still st results

/-! ### Whether the threads are resumed -/

/-- What has been applied stays in the history. -/
def Applied (s t : Debugger K) : Prop := s.applied.length ≤ t.applied.length

instance : IsPreorder (Debugger K) Applied where
  refl _ := le_rfl
  trans _ _ _ first second := first.trans second

theorem applied_of_touches {α : Type} {F : Finset Field} {p : Py K α} (touches : Touches F p)
    (apart : .applied ∉ F) : Keeps Applied p :=
  fun s => (congrArg List.length (touches s .applied apart)).ge

/-- When `cont` returns it has tried to resume the threads. -/
theorem applied_of_cont (returned : (cont k).run s = .ok () t) :
    t.applied.length = s.applied.length + 1 := by
  obtain ⟨_, r, forwarded, rest⟩ := ok_of_bind returned
  obtain ⟨_, q, changed, rest⟩ := ok_of_bind rest
  have same : q.applied = s.applied :=
    (applyChanges_touches.of_ok changed .applied (by decide)).trans
      (forwardSignals_touches.of_ok forwarded .applied (by decide))
  obtain ⟨_, _, noted, rest⟩ := ok_of_bind rest
  cases noted
  obtain ⟨_, _, flagged, rest⟩ := ok_of_bind rest
  cases flagged
  obtain ⟨result, _, ran, rest⟩ := ok_of_bind rest
  cases ran
  have left : t.applied = _ :=
    (raiseErrnoIf_touches (F := ∅) (k := k) _).of_ok rest .applied (by simp)
  rw [left]
  simp [same]

/-- How `__threaded_wait` may return. -/
theorem threadedWait_ok {fuel rounds : Nat}
    (returned : (threadedWait k u fuel (rounds + 1)).run s = .ok () t) :
    ∃ thread, s.threads.head? = some thread ∧
      (thread.dead = true ∧ t = s ∨
        thread.dead = false ∧ ∃ w, (wait k u fuel).run (s.setResume true) = .ok () w ∧
          (w.resumeContext.resume = false ∧ t = w ∨
            w.resumeContext.resume = true ∧ ∃ c, (cont k).run w = .ok () c ∧
              (threadedWait k u fuel rounds).run c = .ok () t)) := by
  obtain ⟨_, _, got, rest⟩ := ok_of_bind returned
  cases got
  split at rest
  · cases rest
  · rename_i thread leader
    refine ⟨thread, leader, ?_⟩
    split at rest
    · rename_i dead
      cases rest
      exact .inl ⟨dead, rfl⟩
    · rename_i alive
      obtain ⟨_, _, set, rest⟩ := ok_of_bind rest
      cases set
      obtain ⟨_, w, waited, rest⟩ := ok_of_bind rest
      obtain ⟨_, _, got, rest⟩ := ok_of_bind rest
      cases got
      refine .inr ⟨(Bool.not_eq_true _).mp alive, w, waited, ?_⟩
      split at rest
      · rename_i resumes
        obtain ⟨_, c, continued, rest⟩ := ok_of_bind rest
        exact .inr ⟨resumes, c, continued, rest⟩
      · rename_i vetoed
        cases rest
        exact .inl ⟨(Bool.not_eq_true _).mp vetoed, rfl⟩

theorem threadedWait_applied {fuel rounds : Nat}
    (returned : (threadedWait k u fuel rounds).run s = .ok () t) : Applied s t := by
  induction rounds generalizing s with
  | zero => cases returned
  | succ rounds ih =>
      obtain ⟨thread, -, ⟨-, rfl⟩ | ⟨-, w, waited, after⟩⟩ := threadedWait_ok returned
      · exact refl_of Applied t
      · have kept : Applied (s.setResume true) w :=
          (applied_of_touches (wait_touches fuel) (by decide)).of_ok waited
        have kept : Applied s w := kept
        rcases after with ⟨-, rfl⟩ | ⟨-, c, continued, later⟩
        · exact kept
        · have grown : Applied w c := (applied_of_cont continued).ge.trans' (Nat.le_succ _)
          exact trans_of Applied kept (trans_of Applied grown (ih later))

/-! ### A step -/

theorem flushRegs_resumptions (g : GlobalState) (w : World K) :
    resumptions (flushRegs k g w).log = resumptions w.log :=
  resumptions_of_injections ((flushRegs_performs g w).injections (fun _ _ => id) fun _ _ _ => id)

theorem worldSinglestep_log {w : World K} {signal : Nat}
    (done : (w.singlestep k threadId signal).1 = true) :
    (w.singlestep k threadId signal).2.log = .stepped threadId signal w.mem :: w.log := by
  unfold World.singlestep at done ⊢
  split at done
  · cases done
  · rfl

theorem singlestep_log {g : GlobalState} {w : World K} (done : (singlestep k g w threadId).1 ≠ -1) :
    ∃ signal memory, (singlestep k g w threadId).2.2.log =
      .stepped threadId signal memory :: (flushRegs k g w).log := by
  refine ⟨_, _, worldSinglestep_log ?_⟩
  by_contra failed
  exact done (if_neg failed)

/-- A step that has been started is the one resumption. -/
theorem step_resumptions (stepped : (Ptrace.step k threadId).run s = .ok () t) :
    (∃ signal memory, resumptions t.world.log =
      .stepped threadId signal memory :: resumptions s.world.log) ∧
      t.resumeContext.isAStep = true := by
  obtain ⟨_, r, disabled, rest⟩ := ok_of_bind stepped
  have before : resumptions r.world.log = resumptions s.world.log :=
    (still_of_touches (F := ∅) disableForStep_touches (by simp)).of_ok disabled
  obtain ⟨result, q, ran, rest⟩ := ok_of_bind rest
  have result_eq : result = (singlestep k r.globalState r.world threadId).1 ∧
      q.world = (singlestep k r.globalState r.world threadId).2.2 := by
    cases ran
    exact ⟨rfl, rfl⟩
  obtain ⟨_, p, passed, rest⟩ := ok_of_bind rest
  obtain ⟨succeeded, same⟩ := raiseErrnoIf_ok passed
  rw [result_eq.1] at succeeded
  obtain ⟨signal, memory, log⟩ := singlestep_log succeeded
  cases rest
  refine ⟨⟨signal, memory, ?_⟩, rfl⟩
  rw [← before, ← flushRegs_resumptions (k := k) r.globalState r.world]
  rw [same, result_eq.2, log]
  rfl

theorem waitResults_steady (fuel : Nat) : Keeps Steady (waitResults k fuel) := by
  refine Keeps.get.bind fun s => ?_
  split
  · exact Keeps.throw _
  · exact Keeps.bind (Keeps.modify fun _ => steady_of_same ⟨rfl, rfl, rfl⟩) fun _ => Keeps.pure _
  · exact Keeps.bind (Keeps.modify fun _ => steady_of_same ⟨rfl, rfl, rfl⟩) fun _ => Keeps.pure _

/-- A wait whose statuses are handled returns what has been decided about them. -/
theorem wait_decides {fuel : Nat} {results : List ThreadStatus} {w : Debugger K}
    (running : s.resumeContext.isStartup = false)
    (collected : (waitResults k fuel).run s = .ok results r)
    (managed : (manageChange k u results).run (r.noteManaged results) = .ok () w) :
    Decides (results.any isTrap) s w := by
  have waited : Steady s r := (waitResults_steady fuel).of_ok collected
  have noted : Steady r (r.noteManaged results) := steady_of_same ⟨rfl, rfl, rfl⟩
  have before := waited.trans noted
  have decides := manageChange_deciding results _ _ (before.startup.trans running) managed
  rw [← Bool.false_or (results.any isTrap)]
  exact before.trans decides

theorem run_wait {fuel : Nat} {results : List ThreadStatus}
    (collected : (waitResults k fuel).run s = .ok results r) :
    (wait k u fuel).run s = (manageChange k u results).run (r.noteManaged results) := by
  simp only [wait, EStateM.run_bind, collected]
  rfl

section Step

variable {fuel rounds : Nat} {results : List ThreadStatus} {w final : Debugger K}

theorem startup_of_step (stepped : (Ptrace.step k threadId).run s = .ok () t)
    (running : s.resumeContext.isStartup = false) :
    (t.setResume true).resumeContext.isStartup = false :=
  (congrArg (·.isStartup) ((step_sparesUser threadId).of_ok stepped)).trans running

theorem leader_of_step (stepped : (Ptrace.step k threadId).run s = .ok () t) :
    t.threads = s.threads :=
  (step_touches threadId).of_ok stepped .threads (by decide)

/-- A step that ends with a trap. -/
theorem oneStep_of_trap (stepped : (Ptrace.step k threadId).run s = .ok () t)
    (running : s.resumeContext.isStartup = false)
    (collects : (waitResults k fuel).run (t.setResume true) = .ok results r)
    (ended : ∃ st ∈ results, st.tid = threadId ∧ st.cause ≠ .unreported)
    (managed : (manageChange k u results).run (r.noteManaged results) = .ok () w)
    (trapped : results.any isTrap = true) : OneStep threadId s w ∧
      w.resumeContext.resume = false := by
  obtain ⟨⟨signal, memory, once⟩, stepping⟩ := step_resumptions stepped
  have waited : (wait k u fuel).run (t.setResume true) = .ok () w :=
    (run_wait collects).trans managed
  have same := (step_touches threadId).of_ok stepped
  have waits := (wait_touches fuel).of_ok waited
  have decides := wait_decides (startup_of_step stepped running) collects managed
  rw [trapped] at decides
  refine ⟨?_, decides.veto (.inr ⟨stepping, rfl⟩)⟩
  constructor
  · exact ⟨signal, memory, ((wait_still fuel).of_ok waited).trans once⟩
  · obtain ⟨st, member, tid, reported⟩ := ended
    refine ⟨st, tid, ?_⟩
    have before : collected t.world.log = collected s.world.log := same .collected (by decide)
    have after : collected w.world.log = collected r.world.log :=
      ((manageChange_touches results).of_ok managed .collected (by decide)).trans
        (noteManaged_touches results r .collected (by decide))
    have grown := (waitResults_collects collects).2 st reported
    have counted := List.count_pos_iff.mpr member
    rw [after, grown, ← before]
    exact Nat.lt_add_of_pos_left counted
  · exact (waits .applied (by decide)).trans (same .applied (by decide))
  · rw [decides.step]
    simp

/-- A step that returns as one has ended with a trap. -/
theorem trap_of_oneStep (stepped : (Ptrace.step k threadId).run s = .ok () t)
    (running : s.resumeContext.isStartup = false)
    (collects : (waitResults k fuel).run (t.setResume true) = .ok results r)
    (returned : (threadedWait k u fuel (rounds + 1)).run t = .ok () final)
    (one : OneStep threadId s final) : leaderAlive t ∧ results.any isTrap = true := by
  obtain ⟨-, stepping⟩ := step_resumptions stepped
  have before : t.applied = s.applied :=
    (step_touches threadId).of_ok stepped .applied (by decide)
  obtain ⟨thread, leader, ⟨-, rfl⟩ | ⟨alive, w, waited, after⟩⟩ := threadedWait_ok returned
  · rw [one.ended] at stepping
    cases stepping
  · refine ⟨⟨thread, leader, by simp [alive]⟩, ?_⟩
    have managed := (run_wait (u := u) collects).symm.trans waited
    have decides := wait_decides (startup_of_step stepped running) collects managed
    rcases after with ⟨-, rfl⟩ | ⟨-, c, continued, later⟩
    · have ended := one.ended
      have still : (t.setResume true).resumeContext.isAStep = true := stepping
      rw [decides.step, still] at ended
      simpa using ended
    · -- `cont` has been called, and nothing takes that back
      have same : w.applied = t.applied :=
        (wait_touches fuel).of_ok waited .applied (by decide)
      have grown := threadedWait_applied later
      rw [Applied, one.notResumed, applied_of_cont continued, same, before] at grown
      exact absurd grown (Nat.not_succ_le_self _)

end Step

/-- Two stopped threads; the coming `waitpid` calls report what is given. -/
def twoThreads (reports : List (Option ThreadStatus)) : World Script :=
  .nops { registers := fun _ => some fun _ => 0x1000, reports }

/-- A step of thread 1 up to the decision of the loop; the result is what has been reported. -/
def stepOnce : Py Script (List ThreadStatus) := do
  Ptrace.step scripted 1
  modify (·.setResume true)
  let results ← waitResults scripted 1
  modify (·.noteManaged results)
  manageChange scripted idle results
  pure results

/-- The threads that were resumed by `cont`, with their signals. -/
def resumedWith (log : List Cffi.Event) : List (Int × Nat) :=
  log.filterMap fun
    | .resumed thread signal _ => some (thread, signal)
    | _ => none

end Libdebug.InternalDebugger
