import Libdebug.InternalDebugger.RaisingCallbacks

/-!
The stops that end `finish` with the heuristic `backtrace`. The method resumes the process and
waits once, on its own; the loop of `__threaded_wait`, which resumes after a stop that nothing
was to stop at, is not entered. Beside it stands what the method is for: to resume and to wait
until a stop is one to stop at.
-/

namespace Libdebug.InternalDebugger

open Libdebug.Foundation Libdebug.Cffi Libdebug.Ptrace

variable {K : Type} (k : Kernel K) (u : UserCode K)

/-- The stops of one wait, and the states before and after they were handled -/
structure Stops (K : Type) where
  batch : List ThreadStatus
  before : Debugger K
  after : Debugger K

/-- `wait`, with what it has seen -/
def waitOnce (fuel : Nat) : Py K (Stops K) := do
  let batch ← collectBatch k fuel
  let before ← get
  manageChange k u batch
  let after ← get
  pure ⟨batch, before, after⟩

/-! ### Stops to stop at -/

/-- A thread has stopped at the breakpoint at the return address. -/
def stoppedAt (s : Debugger K) (bp : Ref) (returnAddress : Nat) (st : ThreadStatus) : Bool :=
  wifstopped st.status && wstopsig st.status = SIGTRAP &&
    ((s.getThreadById st.tid).bind (s.threads[·]?)).any fun thread =>
      s.readReg thread .rip =
        if (s.objects bp).hardware then returnAddress
        else returnAddress + softwareBreakpointByteSize

/-- The handler leaves the flag unset, which the loop of `__threaded_wait` sets before. -/
def leavesStopped (stops : Stops K) : Bool :=
  !(stateAfter (manageChange k u stops.batch) (stops.before.setResume true)).resumeContext.resume

/-- The thread that stands for the process is dead. -/
def processDied (s : Debugger K) : Bool := s.threads.head?.any (·.dead)

def endsFinish (bp : Ref) (returnAddress : Nat) (stops : Stops K) : Bool :=
  stops.batch.any (stoppedAt stops.before bp returnAddress) || leavesStopped k u stops ||
    processDied stops.after

/-! ### The method, and what it is for -/

/-- `finish` with the stops it has seen -/
def finishStops (fuel : Nat) (threadId : Int) (returnAddress : Nat) : Py K (List (Stops K)) := do
  let (bp, found) ← prepareFinish k threadId returnAddress
  cont k
  let stops ← waitOnce k u fuel
  if !found then unsetBreakpoint k bp true
  pure [stops]

/-- Wait for a stop that ends `finish`, and resume after the others. -/
def continueUntil (fuel : Nat) (bp : Ref) (returnAddress : Nat) : Nat → Py K (List (Stops K))
  | 0 => throw .hang
  | rounds + 1 => do
      let stops ← waitOnce k u fuel
      if endsFinish k u bp returnAddress stops then
        pure [stops]
      else do
        cont k
        let later ← continueUntil fuel bp returnAddress rounds
        pure (stops :: later)

/-- `finish` as it is described: the execution is continued until the function returns or the
process stops for another reason. -/
def finishDescribed (fuel rounds : Nat) (threadId : Int) (returnAddress : Nat) :
    Py K (List (Stops K)) := do
  let (bp, found) ← prepareFinish k threadId returnAddress
  cont k
  let all ← continueUntil k u fuel bp returnAddress rounds
  if !found then unsetBreakpoint k bp true
  pure all

/-- The first stops after the process was resumed, and the breakpoint it was resumed with -/
def firstStops (fuel : Nat) (threadId : Int) (returnAddress : Nat) : Py K (Ref × Stops K) := do
  let (bp, _) ← prepareFinish k threadId returnAddress
  cont k
  let stops ← waitOnce k u fuel
  pure (bp, stops)

/-- The first stops, if there are any, are stops to stop at. -/
def FirstStopsEnd (fuel : Nat) (threadId : Int) (returnAddress : Nat) (s : Debugger K) : Prop :=
  Returning (firstStops k u fuel threadId returnAddress)
    (fun seen _ => endsFinish k u seen.1 returnAddress seen.2 = true) s

variable {k u} {fuel rounds : Nat} {threadId : Int} {returnAddress : Nat} {s t : Debugger K}

theorem get_bind_const {α : Type} (p : Py K α) : (get >>= fun _ => p) = p := rfl

/-- The stops are noted beside what `wait` does. -/
theorem waitOnce_forget {α : Type} (k : Kernel K) (u : UserCode K) (fuel : Nat) (next : Py K α) :
    (waitOnce k u fuel >>= fun _ => next) = Ptrace.wait k u fuel >>= fun _ => next := by
  simp only [waitOnce, collectBatch, Ptrace.wait, bind_assoc, pure_bind, get_bind_const]

/-- The stops are noted beside what the method does. -/
theorem finishStops_forget :
    (finishStops k u fuel threadId returnAddress >>= fun _ => pure ()) =
      finishBacktrace k u fuel threadId returnAddress := by
  rw [finishStops, finishBacktrace, bind_assoc]
  apply bind_congr
  intro prepared
  obtain ⟨bp, found⟩ := prepared
  rw [bind_assoc]
  apply bind_congr
  intro _
  cases found with
  | true =>
      change (waitOnce k u fuel >>= fun stops => pure [stops]) >>= (fun _ => pure ()) =
        Ptrace.wait k u fuel >>= fun _ => pure ()
      simp only [bind_assoc, pure_bind]
      exact waitOnce_forget k u fuel (pure ())
  | false =>
      change (waitOnce k u fuel >>= fun stops => unsetBreakpoint k bp true >>= fun _ =>
          pure [stops]) >>= (fun _ => pure ()) =
        Ptrace.wait k u fuel >>= fun _ => unsetBreakpoint k bp true
      simp only [bind_assoc, pure_bind, bind_pure_unit]
      exact waitOnce_forget k u fuel (unsetBreakpoint k bp true)

/-- The described method has seen some stops when it returns. -/
theorem continueUntil_ne_nil {bp : Ref} {all : List (Stops K)}
    (returned : (continueUntil k u fuel bp returnAddress rounds).run s = .ok all t) : all ≠ [] := by
  cases rounds with
  | zero => cases returned
  | succ rounds =>
      obtain ⟨stops, _, _, returned⟩ := ok_of_bind returned
      split at returned
      · cases returned
        exact List.cons_ne_nil _ _
      · obtain ⟨_, _, _, returned⟩ := ok_of_bind returned
        obtain ⟨later, _, _, returned⟩ := ok_of_bind returned
        cases returned
        exact List.cons_ne_nil _ _

/-- It returns after the first stops only if they are stops to stop at. -/
theorem continueUntil_single {bp : Ref} {stops : Stops K}
    (returned : (continueUntil k u fuel bp returnAddress rounds).run s = .ok [stops] t) :
    endsFinish k u bp returnAddress stops = true ∧ (waitOnce k u fuel).run s = .ok stops t := by
  cases rounds with
  | zero => cases returned
  | succ rounds =>
      obtain ⟨first, waited, seen, returned⟩ := ok_of_bind returned
      split at returned
      · rename_i ends
        cases returned
        exact ⟨ends, seen⟩
      · obtain ⟨_, _, _, returned⟩ := ok_of_bind returned
        obtain ⟨later, _, continued, returned⟩ := ok_of_bind returned
        cases returned
        exact absurd rfl (continueUntil_ne_nil continued)

theorem continueUntil_ends {bp : Ref} {stops : Stops K}
    (seen : (waitOnce k u fuel).run s = .ok stops t)
    (ends : endsFinish k u bp returnAddress stops = true) :
    (continueUntil k u fuel bp returnAddress 1).run s = .ok [stops] t := by
  rw [continueUntil, EStateM.run_bind, seen]
  simp only [ends, if_true]
  rfl

/-- What `finish` does where it returns -/
theorem finishStops_ok {all : List (Stops K)}
    (returned : (finishStops k u fuel threadId returnAddress).run s = .ok all t) :
    ∃ bp found p r stops w, (prepareFinish k threadId returnAddress).run s = .ok (bp, found) p ∧
      (cont k).run p = .ok () r ∧ (waitOnce k u fuel).run r = .ok stops w ∧
      (if found then pure () else unsetBreakpoint k bp true : Py K Unit).run w = .ok () t ∧
      all = [stops] := by
  obtain ⟨⟨bp, found⟩, p, prepared, returned⟩ := ok_of_bind returned
  obtain ⟨_, r, resumed, returned⟩ := ok_of_bind returned
  obtain ⟨stops, w, seen, returned⟩ := ok_of_bind returned
  refine ⟨bp, found, p, r, stops, w, prepared, resumed, seen, ?_⟩
  cases found with
  | true =>
      cases returned
      exact ⟨rfl, rfl⟩
  | false =>
      obtain ⟨_, _, removed, returned⟩ := ok_of_bind returned
      cases returned
      exact ⟨removed, rfl⟩

theorem run_firstStops {bp : Ref} {found : Bool} {p r w : Debugger K} {stops : Stops K}
    (prepared : (prepareFinish k threadId returnAddress).run s = .ok (bp, found) p)
    (resumed : (cont k).run p = .ok () r) (seen : (waitOnce k u fuel).run r = .ok stops w) :
    (firstStops k u fuel threadId returnAddress).run s = .ok (bp, stops) w := by
  rw [firstStops, EStateM.run_bind, prepared]
  simp only [EStateM.run_bind, resumed, seen, EStateM.run_pure]

/-- Where `finish` returns, the method as it is described returns after the same stops and in
the same state if and only if the first stops are stops to stop at. -/
theorem described_iff {all : List (Stops K)}
    (returned : (finishStops k u fuel threadId returnAddress).run s = .ok all t) :
    (∃ rounds, (finishDescribed k u fuel rounds threadId returnAddress).run s = .ok all t) ↔
      FirstStopsEnd k u fuel threadId returnAddress s := by
  obtain ⟨bp, found, p, r, stops, w, prepared, resumed, seen, removed, rfl⟩ :=
    finishStops_ok returned
  have first := run_firstStops prepared resumed seen
  constructor
  · rintro ⟨rounds, described⟩ other v run
    obtain ⟨rfl, rfl⟩ := EStateM.Result.ok.inj (first.symm.trans run)
    obtain ⟨other, _, same, described⟩ := ok_of_bind described
    obtain ⟨rfl, rfl⟩ := EStateM.Result.ok.inj (prepared.symm.trans same)
    obtain ⟨_, _, same, described⟩ := ok_of_bind described
    obtain ⟨_, rfl⟩ := EStateM.Result.ok.inj (resumed.symm.trans same)
    obtain ⟨all, v, continued, described⟩ := ok_of_bind described
    have same : all = [stops] := by
      cases found with
      | true =>
          cases described
          rfl
      | false =>
          obtain ⟨_, _, _, described⟩ := ok_of_bind described
          cases described
          rfl
    subst same
    exact (continueUntil_single continued).1
  · intro ends
    have continued := continueUntil_ends seen (ends (bp, stops) w first)
    refine ⟨1, ?_⟩
    rw [finishDescribed, EStateM.run_bind, prepared]
    simp only [EStateM.run_bind, resumed, continued]
    cases found with
    | true =>
        cases removed
        rfl
    | false =>
        have ended : (unsetBreakpoint k bp true >>= fun _ => pure [stops]).run w =
            .ok [stops] t := by
          change (unsetBreakpoint k bp true).run w = _ at removed
          rw [EStateM.run_bind, removed]
          rfl
        exact ended

end Libdebug.InternalDebugger
