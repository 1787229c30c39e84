import Libdebug.InternalDebugger.Stepping

/-!
Functions of the user that raise while a batch of statuses is processed.

Nothing between the function of the user and the polling thread catches the exception:
`manage_change` leaves its loop, `wait` and the loop of `__threaded_wait` are left as well,
and what would have followed is not done. The polling thread hands the exception to the
thread that waits for the command, and that raises it.
-/

namespace Libdebug.InternalDebugger

open Libdebug.Foundation Libdebug.Cffi Libdebug.Ptrace

variable {K : Type}

/-- The debugger and the flag `_is_running`. -/
structure Polled (K : Type) where
  debugger : Debugger K
  isRunning : Bool

/-- A method run by the polling thread. -/
abbrev Poll (K : Type) := EStateM Abort (Polled K)

/-- A method that has nothing to do with the flag. -/
def onDebugger (p : Py K Unit) : Poll K Unit := fun s =>
  match p.run s.debugger with
  | .ok _ t => .ok () { s with debugger := t }
  | .error e t => .error e { s with debugger := t }

def setRunning : Poll K Unit := modify ({ · with isRunning := true })

def setStopped : Poll K Unit := modify ({ · with isRunning := false })

section Methods

variable (k : Kernel K) (u : UserCode K)

/-- `__threaded_wait`, with what follows its loop -/
def polledWait (fuel rounds : Nat) : Poll K Unit := do
  onDebugger (threadedWait k u fuel rounds)
  setStopped

/-- `__threaded_cont` -/
def polledCont : Poll K Unit := do
  setRunning
  onDebugger (Ptrace.cont k)

/-- `__threaded_step` -/
def polledStep (threadId : Int) : Poll K Unit := do
  onDebugger (Ptrace.step k threadId)
  setRunning

/-- `__threaded_finish` -/
def polledFinish (fuel : Nat) (threadId : Int) (heuristic : String)
    (returnAddress : Option Nat) : Poll K Unit := do
  onDebugger (finish k u fuel threadId heuristic returnAddress)
  setStopped

/-- The methods of `InternalDebugger` in which batches of statuses are processed. -/
inductive Method where
  | cont (fuel rounds : Nat)
  | step (fuel rounds : Nat) (threadId : Int)
  | wait (fuel rounds : Nat)
  | finish (fuel : Nat) (threadId : Int) (heuristic : String) (returnAddress : Option Nat)

/-- What the polling thread runs for a method, one command after the other. -/
def Method.polled : Method → Poll K Unit
  | .cont fuel rounds => do
      polledCont k
      polledWait k u fuel rounds
  | .step fuel rounds threadId => do
      polledStep k threadId
      polledWait k u fuel rounds
  | .wait fuel rounds => do
      let s ← get
      -- most of the time a wait was queued already by the command before
      if s.isRunning then polledWait k u fuel rounds
  | .finish fuel threadId heuristic returnAddress =>
      polledFinish k u fuel threadId heuristic returnAddress

/-- `__polling_thread_function` catches what a command raises, and puts it in the response
queue; `_join_and_check_status` takes it from there and raises it in the main thread. -/
def joinAndCheckStatus (p : Poll K Unit) (s : Polled K) : Option (Option PyError × Polled K) :=
  match p.run s with
  | .ok _ t => some (none, t)
  | .error (.raised error) t => some (some error, t)
  | .error .crash _ | .error .hang _ => none

/-! ### Batches -/

/-- The statuses of a batch that `manage_change` hands to `_handle_change`, `batch` in whole,
up to one for which an exception is raised. -/
def handled (batch : List ThreadStatus) : List ThreadStatus → Debugger K → List ThreadStatus
  | [], _ => []
  | st :: rest, s =>
      match (handleChange k u st batch).run s with
      | .ok _ t => st :: handled batch rest t
      | .error _ _ => [st]

/-- The statuses of a batch that are not spurious traps -/
def statuses (batch : List ThreadStatus) : List ThreadStatus := batch.filter (·.tid ≠ -1)

/-- The first half of `wait`: the batch is collected. -/
def collectBatch (fuel : Nat) : Py K (List ThreadStatus) := do
  let results ← waitResults k fuel
  modify (·.noteManaged results)
  pure results

/-- `finish` with the heuristic `backtrace`, up to the batch it processes -/
def finishBatch (fuel : Nat) (threadId : Int) (returnAddress : Nat) : Py K (List ThreadStatus) := do
  let _ ← prepareFinish k threadId returnAddress
  Ptrace.cont k
  collectBatch k fuel

/-- A batch is processed from a state `r`, and an exception is raised there in a state `t`. -/
structure BatchRaises (batch : List ThreadStatus) (r : Debugger K) (error : PyError)
    (t : Debugger K) : Prop where
  raised : (manageChange k u batch).run r = .error (.raised error) t

/-- The batch of a round of the loop raises. -/
inductive LoopRaises (fuel : Nat) (batch : List ThreadStatus) (r : Debugger K) (error : PyError)
    (t : Debugger K) : Nat → Debugger K → Prop where
  | here {rounds : Nat} {s : Debugger K} : leaderAlive s →
      (collectBatch k fuel).run (s.setResume true) = .ok batch r →
      BatchRaises k u batch r error t →
      LoopRaises fuel batch r error t (rounds + 1) s
  | later {rounds : Nat} {s waited resumed : Debugger K} : leaderAlive s →
      (Ptrace.wait k u fuel).run (s.setResume true) = .ok () waited →
      waited.resumeContext.resume = true →
      (Ptrace.cont k).run waited = .ok () resumed →
      LoopRaises fuel batch r error t rounds resumed →
      LoopRaises fuel batch r error t (rounds + 1) s

/-- A method processes a batch, which raises. -/
inductive MethodRaises (batch : List ThreadStatus) (r : Debugger K) (error : PyError)
    (t : Debugger K) : Method → Polled K → Prop where
  | cont {fuel rounds : Nat} {s : Polled K} {resumed : Debugger K} :
      (Ptrace.cont k).run s.debugger = .ok () resumed →
      LoopRaises k u fuel batch r error t rounds resumed →
      MethodRaises batch r error t (.cont fuel rounds) s
  | step {fuel rounds : Nat} {threadId : Int} {s : Polled K} {stepped : Debugger K} :
      (Ptrace.step k threadId).run s.debugger = .ok () stepped →
      LoopRaises k u fuel batch r error t rounds stepped →
      MethodRaises batch r error t (.step fuel rounds threadId) s
  | wait {fuel rounds : Nat} {s : Polled K} : s.isRunning = true →
      LoopRaises k u fuel batch r error t rounds s.debugger →
      MethodRaises batch r error t (.wait fuel rounds) s
  | finish {fuel : Nat} {threadId : Int} {returnAddress : Nat} {s : Polled K} :
      (finishBatch k fuel threadId returnAddress).run s.debugger = .ok batch r →
      BatchRaises k u batch r error t →
      MethodRaises batch r error t (.finish fuel threadId "backtrace" (some returnAddress)) s

def Method.isFinish : Method → Bool
  | .finish .. => true
  | .cont .. | .step .. | .wait .. => false

/-- The process counts as stopped, and no status of the batch has been left out. -/
structure BatchConsistent (batch : List ThreadStatus) (r : Debugger K) (final : Polled K) :
    Prop where
  stopped : final.isRunning = false
  whole : handled k u batch (statuses batch) r = statuses batch

/-- Nothing is raised before the last status of the batch. -/
def RaisesLast (batch : List ThreadStatus) (r : Debugger K) : Prop :=
  ∃ s, ((statuses batch).dropLast.forM fun st => handleChange k u st batch).run r = .ok ⟨⟩ s

end Methods

section Unwinding

variable {k : Kernel K} {u : UserCode K} {batch : List ThreadStatus} {error : PyError}
  {r t s : Debugger K} {fuel rounds : Nat}

/-! ### The exception on its way -/

theorem wait_raises (collected : (collectBatch k fuel).run s = .ok batch r)
    (raises : BatchRaises k u batch r error t) :
    (Ptrace.wait k u fuel).run s = .error (.raised error) t := by
  obtain ⟨results, read, waited, noted⟩ := ok_of_bind collected
  cases noted
  rw [Ptrace.wait, EStateM.run_bind, waited]
  exact raises.raised

theorem threadedWait_raises (raises : LoopRaises k u fuel batch r error t rounds s) :
    (threadedWait k u fuel rounds).run s = .error (.raised error) t := by
  induction raises with
  | here alive collected batchRaises =>
      obtain ⟨leader, first, live⟩ := alive
      have dead : leader.dead = false := by simpa using live
      have waited := wait_raises collected batchRaises
      simp only [threadedWait, EStateM.run_bind, EStateM.run_get, first, dead, Bool.false_eq_true,
        if_false, EStateM.run_modify, waited]
  | later alive waited resumes resumed _ ih =>
      obtain ⟨leader, first, live⟩ := alive
      have dead : leader.dead = false := by simpa using live
      simp only [threadedWait, EStateM.run_bind, EStateM.run_get, first, dead, Bool.false_eq_true,
        if_false, EStateM.run_modify, waited, resumes, if_true, resumed, ih]

theorem finish_raises {threadId : Int} {returnAddress : Nat}
    (collected : (finishBatch k fuel threadId returnAddress).run s = .ok batch r)
    (raises : BatchRaises k u batch r error t) :
    (finish k u fuel threadId "backtrace" (some returnAddress)).run s =
      .error (.raised error) t := by
  obtain ⟨bp, prepared, first, collected⟩ := ok_of_bind collected
  obtain ⟨_, resumed, second, collected⟩ := ok_of_bind collected
  have waited := wait_raises collected raises
  have unfolded : finish k u fuel threadId "backtrace" (some returnAddress) =
      finishBacktrace k u fuel threadId returnAddress := rfl
  rw [unfolded, finishBacktrace, EStateM.run_bind, first]
  simp only [EStateM.run_bind, second, waited]

theorem run_onDebugger (p : Py K Unit) (polled : Polled K) : (onDebugger p).run polled =
    match p.run polled.debugger with
    | .ok _ t => .ok () { polled with debugger := t }
    | .error e t => .error e { polled with debugger := t } := rfl

theorem polledWait_raises {isRunning : Bool}
    (raises : LoopRaises k u fuel batch r error t rounds s) :
    (polledWait k u fuel rounds).run ⟨s, isRunning⟩ = .error (.raised error) ⟨t, isRunning⟩ := by
  rw [polledWait, EStateM.run_bind, run_onDebugger, threadedWait_raises raises]

theorem run_polledCont {polled : Polled K}
    (resumed : (Ptrace.cont k).run polled.debugger = .ok () s) :
    (polledCont k).run polled = .ok () ⟨s, true⟩ := by
  rw [polledCont, EStateM.run_bind, setRunning, EStateM.run_modify]
  dsimp only
  rw [run_onDebugger, resumed]

theorem run_polledStep {polled : Polled K} {threadId : Int}
    (stepped : (Ptrace.step k threadId).run polled.debugger = .ok () s) :
    (polledStep k threadId).run polled = .ok () ⟨s, true⟩ := by
  rw [polledStep, EStateM.run_bind, run_onDebugger, stepped]
  rfl

/-- Where a batch raises, the flag stays what it was while the batch was processed: set, except
by `finish`, which leaves it alone. -/
theorem polled_raises {method : Method} {polled : Polled K}
    (raises : MethodRaises k u batch r error t method polled) :
    (method.polled k u).run polled =
      .error (.raised error) ⟨t, !method.isFinish || polled.isRunning⟩ := by
  cases raises with
  | cont resumed loop =>
      rw [Method.polled, EStateM.run_bind, run_polledCont resumed]
      exact polledWait_raises loop
  | step stepped loop =>
      rw [Method.polled, EStateM.run_bind, run_polledStep stepped]
      exact polledWait_raises loop
  | wait running loop =>
      obtain ⟨debugger, isRunning⟩ := polled
      obtain rfl : isRunning = true := running
      simp only [Method.polled, EStateM.run_bind, EStateM.run_get, if_true]
      exact polledWait_raises loop
  | finish collected batchRaises =>
      rw [Method.polled, polledFinish, EStateM.run_bind, run_onDebugger,
        finish_raises collected batchRaises]
      rfl

theorem LoopRaises.batchRaises (raises : LoopRaises k u fuel batch r error t rounds s) :
    BatchRaises k u batch r error t := by
  induction raises with
  | here _ _ batchRaises => exact batchRaises
  | later _ _ _ _ _ ih => exact ih

theorem MethodRaises.batchRaises {method : Method} {polled : Polled K}
    (raises : MethodRaises k u batch r error t method polled) :
    BatchRaises k u batch r error t := by
  cases raises with
  | cont _ loop | step _ loop | wait _ loop => exact loop.batchRaises
  | finish _ batchRaises => exact batchRaises

/-! ### What is left out of the batch -/

/-- A loop that raises hands over every status if and only if it raises for the last one. -/
theorem handled_iff {rest : List ThreadStatus} {e : Abort}
    (raised : (rest.forM fun st => handleChange k u st batch).run s = .error e t) :
    handled k u batch rest s = rest ↔
      ∃ r, (rest.dropLast.forM fun st => handleChange k u st batch).run s = .ok ⟨⟩ r := by
  induction rest generalizing s with
  | nil => cases raised
  | cons st rest ih =>
      have unfolded (l : List ThreadStatus) :
          ((st :: l).forM fun st => handleChange k u st batch) =
            (handleChange k u st batch >>= fun _ =>
              l.forM fun st => handleChange k u st batch) := rfl
      rw [unfolded, EStateM.run_bind] at raised
      rcases first : (handleChange k u st batch).run s with ⟨_, next⟩ | ⟨e', next⟩
      · rw [first] at raised
        cases rest with
        | nil => cases raised
        | cons other later =>
            rw [handled, first, List.dropLast_cons_cons, unfolded]
            simp only [List.cons.injEq, true_and, EStateM.run_bind, first]
            exact ih raised
      · rw [handled, first]
        cases rest with
        | nil => exact iff_of_true rfl ⟨s, rfl⟩
        | cons other later =>
            rw [List.dropLast_cons_cons, unfolded]
            simp [EStateM.run_bind, first]

/-- Where a function of the user raises while a batch is processed, the exception is delivered
to the main thread; and then the process counts as stopped and no status has been left out if
and only if it was for the last status of the batch, in a `finish` begun with the flag unset. -/
theorem raising_callback_consistent_iff {method : Method} {polled : Polled K}
    (raises : MethodRaises k u batch r error t method polled) :
    ∃ final, joinAndCheckStatus (method.polled k u) polled = some (some error, final) ∧
      final.debugger = t ∧
      (BatchConsistent k u batch r final ↔
        method.isFinish = true ∧ polled.isRunning = false ∧ RaisesLast k u batch r) := by
  refine ⟨⟨t, !method.isFinish || polled.isRunning⟩, ?_, rfl, ?_⟩
  · rw [joinAndCheckStatus, polled_raises raises]
  · have whole : handled k u batch (statuses batch) r = statuses batch ↔ RaisesLast k u batch r :=
      handled_iff raises.batchRaises.raised
    constructor
    · rintro ⟨stopped, all⟩
      simp only [Bool.or_eq_false_iff, Bool.not_eq_eq_eq_not, Bool.not_false] at stopped
      exact ⟨stopped.1, stopped.2, whole.mp all⟩
    · rintro ⟨finishes, unset, last⟩
      exact ⟨by simp [finishes, unset], whole.mpr last⟩

end Unwinding

/-! ### Two threads at one breakpoint -/

/-- A function of the user that raises -/
def raising {K : Type} : UserCode K := fun _ _ _ => ([], some (.user 0))

/-- The threads stop behind the breakpoint at `0x1000`, the first one as the last of them. -/
def bothBehindTrap : World Script :=
  .nops
    { registers := fun _ => some fun reg => if reg = .rip then 0x1001 else 0
      reports := [some ⟨1, 0x057f, .softwareTrap⟩, some ⟨2, 0x057f, .softwareTrap⟩, none] }

/-- One thread does. -/
def oneBehindTrap : World Script :=
  .nops
    { registers := fun _ => some fun reg => if reg = .rip then 0x1001 else 0
      reports := [some ⟨1, 0x057f, .softwareTrap⟩, none] }

theorem raising_last_in_finish : ∃ s batch r error t final,
    (debugging scripted raising).run (.initial oneBehindTrap)
        [.registerNewThread 1, .breakpoint 0x1000 "" false none 1 (some 0)] = some s ∧
      MethodRaises scripted raising batch r error t (.finish 2 1 "backtrace" (some 0x2000))
        ⟨s, false⟩ ∧
      BatchConsistent scripted raising batch r final := by
  obtain ⟨s, reached, batch, r, collected, raised, last⟩ :
      ∃ s, (debugging scripted raising).run (.initial oneBehindTrap)
          [.registerNewThread 1, .breakpoint 0x1000 "" false none 1 (some 0)] = some s ∧
        Returns (finishBatch scripted 2 1 0x2000) (fun batch r =>
          (joinAndCheckStatus (onDebugger (manageChange scripted raising batch)) ⟨r, false⟩).any
              (fun delivered => delivered.1 = some (.user 0)) = true ∧
            (statuses batch).dropLast = []) s :=
    Machine.exists_of_run (by decide +kernel)
  rcases ended : (manageChange scripted raising batch).run r with ⟨_, t⟩ | ⟨e, t⟩
  · simp [joinAndCheckStatus, run_onDebugger, ended] at raised
  · have error : e = .raised (.user 0) := by
      cases e <;> simp_all [joinAndCheckStatus, run_onDebugger]
    subst error
    have raises : MethodRaises scripted raising batch r (.user 0) t
        (.finish 2 1 "backtrace" (some 0x2000)) ⟨s, false⟩ := .finish collected ⟨ended⟩
    obtain ⟨final, -, -, consistent⟩ := raising_callback_consistent_iff raises
    refine ⟨s, batch, r, _, t, final, reached, raises, consistent.mpr ⟨rfl, rfl, r, ?_⟩⟩
    rw [last]
    rfl

/-- Both threads stop behind the breakpoint, and its callback raises for the second one: the
first one is left where it is, and the process counts as running. -/
theorem raising_callback_leaves_running :
    ∃ s, (debugging scripted raising).run (.initial bothBehindTrap)
        [.registerNewThread 1, .registerNewThread 2,
          .breakpoint 0x1000 "" false none 1 (some 0)] = some s ∧
      (joinAndCheckStatus ((Method.cont 3 1).polled scripted raising) ⟨s, false⟩).any
        (fun delivered => delivered.1 = some (.user 0) && delivered.2.isRunning &&
          (delivered.2.debugger.threads.map fun thread =>
            delivered.2.debugger.readReg thread .rip) = [0x1001, 0x1000]) = true :=
  Machine.exists_of_run (by decide +kernel)

end Libdebug.InternalDebugger
