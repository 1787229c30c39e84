import Libdebug.Ptrace.StopDecision
import Mathlib.Algebra.GroupWithZero.Nat

/-!
A batch of statuses is the superposition of its statuses. Each of them can be taken by itself, in
the state in which the batch was handed over: the batch returns if each of them does, stops the
process if one of them does, and counts the hits that they count together. Handlers of system
calls are the exception: the threads that stop at one share its flag, and so it takes a step for
each of them.
-/

namespace Libdebug.Ptrace

open Libdebug.Foundation Libdebug.Cffi

/-! ### Sums of contributions -/

theorem SyscallHandler.after_enabled (handler : SyscallHandler) :
    handler.after.enabled = handler.enabled := by
  unfold SyscallHandler.after
  split <;> rfl

theorem SignalCatcher.counted_enabled (catcher : SignalCatcher) :
    catcher.counted.enabled = catcher.enabled := by
  unfold SignalCatcher.counted
  split <;> rfl

namespace Tally

variable {tally : Tally} {contributions : List Contribution} {c d : Contribution}

/-- Whether the contribution alone keeps the process from being resumed -/
def decides (tally : Tally) : Contribution → Bool
  | .stop => true
  | .interrupt => tally.forceInterrupt
  | .endStep => tally.isAStep
  | .hit _ => true
  | .syscall number => (tally.handlers number).any (·.enabled)
  | .signal number => (tally.catchers number).any (·.enabled)
  | .place _ _ => false

theorem add_resume (c : Contribution) :
    (tally.add c).resume = (tally.resume && !tally.decides c) := by
  cases c with
  | place => exact (Bool.and_true _).symm
  | _ => rfl

/-- What does not decide anything does not keep others from deciding. -/
theorem decides_add (undecided : tally.decides c = false) :
    (tally.add c).decides d = tally.decides d := by
  cases c with
  | stop => cases undecided
  | hit => cases undecided
  | place => cases d <;> rfl
  | interrupt =>
      cases d with
      | interrupt => exact undecided.symm
      | _ => rfl
  | endStep =>
      cases d with
      | endStep => exact undecided.symm
      | _ => rfl
  | syscall number =>
      cases d with
      | syscall other =>
          simp only [decides, add]
          by_cases same : other = number
          · subst same
            rw [Function.update_self, Option.any_map]
            exact congrArg (fun f => Option.any f (tally.handlers other))
              (funext SyscallHandler.after_enabled)
          · rw [Function.update_of_ne same]
      | _ => rfl
  | signal number =>
      cases d with
      | signal other =>
          simp only [decides, add]
          by_cases same : other = number
          · subst same
            rw [Function.update_self, Option.any_map]
            exact congrArg (fun f => Option.any f (tally.catchers other))
              (funext SignalCatcher.counted_enabled)
          · rw [Function.update_of_ne same]
      | _ => rfl

/-- The process is resumed unless one of the contributions would have stopped it at the outset. -/
theorem addAll_resume : (tally.addAll contributions).resume =
    (tally.resume && contributions.all fun c => !tally.decides c) := by
  induction contributions generalizing tally with
  | nil => exact (Bool.and_true _).symm
  | cons c rest ih =>
      rw [addAll_cons, ih, add_resume, List.all_cons, Bool.and_assoc]
      cases decided : tally.decides c with
      | true => simp
      | false => simp only [decides_add decided]

theorem addAll_hits (bp : Ref) : (tally.addAll contributions).hits bp =
    tally.hits bp + contributions.count (.hit bp) := by
  induction contributions generalizing tally with
  | nil => rfl
  | cons c rest ih =>
      rw [addAll_cons, ih, List.count_cons, ← Nat.add_assoc, Nat.add_right_comm]
      congr 1
      cases c with
      | hit other =>
          by_cases same : bp = other
          · subst same
            simp [add]
          · have different : ¬ other = bp := fun equal => same equal.symm
            simp [add, Function.update_of_ne same, different]
      | _ => rfl

theorem addAll_catchers (number : Nat) : (tally.addAll contributions).catchers number =
    (tally.catchers number).map
      (SignalCatcher.counted^[contributions.count (.signal number)]) := by
  induction contributions generalizing tally with
  | nil => simp
  | cons c rest ih =>
      rw [addAll_cons, ih, List.count_cons]
      cases c with
      | signal other =>
          by_cases same : number = other
          · subst same
            simp [add, Function.iterate_succ, Function.comp_def]
          · have different : ¬ other = number := fun equal => same equal.symm
            simp [add, Function.update_of_ne same, different]
      | _ => simp [add, stopIf]

theorem addAll_handlers (number : Nat) : (tally.addAll contributions).handlers number =
    (tally.handlers number).map
      (SyscallHandler.after^[contributions.count (.syscall number)]) := by
  induction contributions generalizing tally with
  | nil => simp
  | cons c rest ih =>
      rw [addAll_cons, ih, List.count_cons]
      cases c with
      | syscall other =>
          by_cases same : number = other
          · subst same
            simp [add, Function.iterate_succ, Function.comp_def]
          · have different : ¬ other = number := fun equal => same equal.symm
            simp [add, Function.update_of_ne same, different]
      | _ => simp [add, stopIf]

/-- The hits of the catcher of the signal; without one there are none. -/
def signalHits (tally : Tally) (number : Nat) : Nat :=
  ((tally.catchers number).map (·.hitCount)).getD 0

end Tally

theorem SignalCatcher.counted_iterate (catcher : SignalCatcher) (times : Nat) :
    (counted^[times] catcher).hitCount =
      catcher.hitCount + if catcher.enabled then times else 0 := by
  induction times generalizing catcher with
  | zero => simp
  | succ times ih =>
      rw [Function.iterate_succ_apply, ih, counted_enabled]
      unfold counted
      split <;> simp [Nat.add_assoc, Nat.add_comm 1]

theorem Tally.addAll_signalHits (tally : Tally) (contributions : List Contribution)
    (number : Nat) : (tally.addAll contributions).signalHits number = tally.signalHits number +
      if (tally.catchers number).any (·.enabled) then contributions.count (.signal number)
      else 0 := by
  rw [signalHits, signalHits, addAll_catchers]
  rcases tally.catchers number with _ | catcher
  · rfl
  · exact catcher.counted_iterate _

/-! ### Batches -/

section Batches

variable {K V : Type} {k : Kernel K} {u : UserCode K} {view : Memory → K → Int → V}
  {s t : Debugger K} {st : ThreadStatus} {results : List ThreadStatus}

/-- The hits of the catcher of the signal; without one there are none. -/
def Debugger.signalHits (s : Debugger K) (number : Nat) : Nat :=
  ((s.caughtSignals.get? number).map (·.hitCount)).getD 0

/-- The system call at which the status says that its thread has stopped, if it is handled -/
def Debugger.reportedSyscall (s : Debugger K) (st : ThreadStatus) : Option Nat :=
  if wifstopped st.status ∧ s.resumeContext.isStartup = false ∧
      wstopsig st.status = syscallSigtrap then
    (s.liveFile st.tid).map fun file => s.globalState.files file .origRax
  else none

/-- The turn of one status, in the state in which the batch was handed over -/
def Debugger.alone (k : Kernel K) (u : UserCode K) (results : List ThreadStatus) (s : Debugger K)
    (st : ThreadStatus) : Debugger K :=
  stateAfter (handleChange k u st results) s

theorem count_trapContributions (number : Nat) (tid : Int) :
    (s.trapContributions k tid).count (.syscall number) = 0 := by
  unfold Debugger.trapContributions
  split
  · rfl
  · dsimp only
    split
    · rfl
    · rfl
    · rcases s.hitWatchpoint k tid with _ | bp <;> rfl

theorem count_syscall (number : Nat) :
    (s.contributions k results st).count (.syscall number) =
      if s.reportedSyscall st = some number then 1 else 0 := by
  have signals : (s.signalContributions st).count (.syscall number) = 0 := by
    unfold Debugger.signalContributions
    split <;> rfl
  have clones : (s.cloneContributions k results st).count (.syscall number) = 0 := by
    unfold Debugger.cloneContributions
    split <;> rfl
  rw [Debugger.contributions]
  by_cases stopped : wifstopped st.status = true ∧ s.resumeContext.isStartup = false
  · rw [if_pos (by simpa using stopped), List.count_append, signals, Debugger.stopContributions]
    by_cases syscall : wstopsig st.status = syscallSigtrap
    · have reported : s.reportedSyscall st =
          (s.liveFile st.tid).map fun file => s.globalState.files file .origRax :=
        if_pos ⟨stopped.1, stopped.2, syscall⟩
      rw [if_pos syscall, reported]
      rcases s.liveFile st.tid with _ | file <;> simp [List.count_cons]
    · have reported : s.reportedSyscall st = none := if_neg fun all => syscall all.2.2
      rw [if_neg syscall, reported]
      split
      · rfl
      · split
        · rw [List.count_append, List.count_cons, clones, count_trapContributions]
          rfl
        · rfl
  · have reported : s.reportedSyscall st = none :=
      if_neg fun all => stopped ⟨all.1, all.2.1⟩
    have running : ¬ (wifstopped st.status && !s.resumeContext.isStartup) = true := by
      simpa using stopped
    rw [if_neg running, reported]
    rfl

theorem count_syscalls (number : Nat) (xs : List ThreadStatus) :
    (xs.flatMap (s.contributions k results)).count (.syscall number) =
      xs.countP (s.reportedSyscall · = some number) := by
  induction xs with
  | nil => rfl
  | cons st rest ih =>
      rw [List.flatMap_cons, List.count_append, ih, count_syscall, List.countP_cons, Nat.add_comm]
      simp only [decide_eq_true_eq]

section Turns

variable (threadwise : Threadwise k view) (reads : ReadsUserArea k) (sound : s.Sound)
  (callbackless : s.Callbackless) (batch : s.Batch k results)

include threadwise reads sound callbackless batch

/-- The batch is handled to its end if and only if each of its statuses is. -/
theorem manageChange_returns_iff : Returns (manageChange k u results) (fun _ _ => True) s ↔
    ∀ st ∈ genuine results, Returns (handleChange k u st results) (fun _ _ => True) s := by
  have independent := handleChange_independent (u := u) threadwise reads batch
  have own : ∀ st ∈ genuine results, st ∈ genuine results ∧ Pending k view s st s :=
    fun st member => ⟨member, .refl sound callbackless⟩
  rw [manageChange_perm (.refl results)]
  constructor
  · rintro ⟨_, t, returned, -⟩ st member
    have manageable := independent.manageable_of_returned batch.apart own returned st member
    obtain ⟨r, turned, -⟩ := independent.returns st s (own st member) manageable
    exact ⟨⟨⟩, r, turned, trivial⟩
  · intro turns
    obtain ⟨t, ended, -⟩ := independent.run batch.apart own fun st member => by
      obtain ⟨_, r, turned, -⟩ := turns st member
      by_contra unmanageable
      obtain ⟨e, r', raised⟩ := independent.raises st s (own st member) unmanageable
      rw [turned] at raised
      cases raised
    exact ⟨⟨⟩, t, ended, trivial⟩

/-- What the batch comes to, and what each of its statuses would have come to. -/
theorem manageChange_tally (returned : (manageChange k u results).run s = .ok () t) :
    t.tally = s.tally.addAll ((genuine results).flatMap (s.contributions k results)) ∧
      ∀ st ∈ genuine results,
        (s.alone k u results st).tally = s.tally.addAll (s.contributions k results st) := by
  have independent := handleChange_independent (u := u) threadwise reads batch
  have own : ∀ st ∈ genuine results, st ∈ genuine results ∧ Pending k view s st s :=
    fun st member => ⟨member, .refl sound callbackless⟩
  rw [manageChange_perm (.refl results)] at returned
  have manageable := independent.manageable_of_returned batch.apart own returned
  constructor
  · obtain ⟨r, ended, counted⟩ := independent.run batch.apart own manageable
    rw [returned] at ended
    cases ended
    exact counted
  · intro st member
    obtain ⟨r, turned, counted, -⟩ := independent.returns st s (own st member)
      (manageable st member)
    rw [Debugger.alone, stateAfter, turned]
    exact counted

end Turns

/-- A count to which every contribution adds what it would have added at the outset -/
theorem sum_flatMap (count : Tally → Nat) {weight : List Contribution → Nat}
    (counts : ∀ contributions, count (s.tally.addAll contributions) =
      count s.tally + weight contributions)
    (sums : ∀ xs : List ThreadStatus, weight (xs.flatMap (s.contributions k results)) =
      (xs.map fun st => weight (s.contributions k results st)).sum)
    (total : t.tally = s.tally.addAll ((genuine results).flatMap (s.contributions k results)))
    (turns : ∀ st ∈ genuine results,
      (s.alone k u results st).tally = s.tally.addAll (s.contributions k results st)) :
    count t.tally = count s.tally + ((genuine results).map fun st =>
      count (s.alone k u results st).tally - count s.tally).sum := by
  have each : (genuine results).map (fun st => weight (s.contributions k results st)) =
      (genuine results).map fun st =>
        count (s.alone k u results st).tally - count s.tally := by
    refine List.map_congr_left fun st member => ?_
    rw [turns st member, counts, Nat.add_sub_cancel_left]
  rw [total, counts, sums, each]

/-- **A batch of statuses is the superposition of its statuses**: it is handled to its end if
each of them is; the process stops if one of them alone would have stopped it; breakpoints and
catchers count the hits of all of them together; and the handler of a system call takes a step
for each thread that has stopped at it. -/
theorem manageChange_superposes {world : World K} (threadwise : Threadwise k view)
    (reads : ReadsUserArea k) (handed : HandsOver k u world s) (callbackless : s.Callbackless)
    (batch : s.Batch k results) :
    (Returns (manageChange k u results) (fun _ _ => True) s ↔
      ∀ st ∈ genuine results, Returns (handleChange k u st results) (fun _ _ => True) s) ∧
    Returning (manageChange k u results) (fun _ t =>
      (t.resumeContext.resume = false ↔ s.resumeContext.resume = false ∨
        ∃ st ∈ genuine results, (s.alone k u results st).resumeContext.resume = false) ∧
      (∀ bp, (t.objects bp).hitCount = (s.objects bp).hitCount +
        ((genuine results).map fun st =>
          ((s.alone k u results st).objects bp).hitCount - (s.objects bp).hitCount).sum) ∧
      (∀ number, t.signalHits number = s.signalHits number +
        ((genuine results).map fun st =>
          (s.alone k u results st).signalHits number - s.signalHits number).sum) ∧
      ∀ number, t.handledSyscalls.get? number = (s.handledSyscalls.get? number).map
        (SyscallHandler.after^[(genuine results).countP
          (s.reportedSyscall · = some number)])) s := by
  have sound : s.Sound := handed.sound
  refine ⟨manageChange_returns_iff threadwise reads sound callbackless batch,
    fun _ t returned => ?_⟩
  obtain ⟨total, turns⟩ := manageChange_tally threadwise reads sound callbackless batch returned
  have flat (c : Contribution) (xs : List ThreadStatus) :
      (xs.flatMap (s.contributions k results)).count c =
        (xs.map fun st => (s.contributions k results st).count c).sum := List.count_flatMap
  refine ⟨?_, fun bp => ?_, fun number => ?_, fun number => ?_⟩
  · have decided : t.tally.resume = _ := congrArg Tally.resume total
    rw [Tally.addAll_resume] at decided
    change t.tally.resume = false ↔ s.tally.resume = false ∨ ∃ st ∈ genuine results,
      (s.alone k u results st).tally.resume = false
    rw [decided]
    simp only [Bool.and_eq_false_iff, List.all_eq_false, List.mem_flatMap]
    constructor
    · rintro (stopped | ⟨c, ⟨st, member, there⟩, decides⟩)
      · exact .inl stopped
      · refine .inr ⟨st, member, ?_⟩
        rw [turns st member, Tally.addAll_resume, Bool.and_eq_false_iff, List.all_eq_false]
        exact .inr ⟨c, there, decides⟩
    · rintro (stopped | ⟨st, member, stops⟩)
      · exact .inl stopped
      · rw [turns st member, Tally.addAll_resume, Bool.and_eq_false_iff,
          List.all_eq_false] at stops
        rcases stops with stopped | ⟨c, there, decides⟩
        · exact .inl stopped
        · exact .inr ⟨c, ⟨st, member, there⟩, decides⟩
  · exact sum_flatMap (·.hits bp) (fun _ => Tally.addAll_hits bp) (flat _) total turns
  · refine sum_flatMap (·.signalHits number)
      (fun contributions => Tally.addAll_signalHits _ contributions number) (fun xs => ?_) total
      turns
    split
    · exact flat _ xs
    · simp
  · have stepped : t.tally.handlers number = _ := congrArg (Tally.handlers · number) total
    rw [Tally.addAll_handlers, count_syscalls] at stepped
    exact stepped

end Batches

/-- The hit of thread 2 is counted beside the clone event of thread 1, and stops the process. -/
theorem clone_and_trap_superpose : ∃ s, HandsOver stopping idle cloning s ∧
    Returns (manageChange stopping idle [cloneOf1, trapOf2]) (fun _ t =>
      t.resumeContext.resume = false ∧ (t.objects 1).hitCount = 1) s := by
  obtain ⟨r, reached, reported, s, collected, known, turns, unhit, stop, silent, hit⟩ : ∃ r,
      (debugging stopping idle).run (.initial cloning) (fourHardware ++ [.cont]) = some r ∧
      Returns (collect stopping 3) (fun _ s => s.AtClone ∧
        (∀ st ∈ [cloneOf1, trapOf2],
          Returns (handleChange stopping idle st [cloneOf1, trapOf2]) (fun _ _ => True) s) ∧
        (s.objects 1).hitCount = 0 ∧
        (s.alone stopping idle [cloneOf1, trapOf2] trapOf2).resumeContext.resume = false ∧
        ((s.alone stopping idle [cloneOf1, trapOf2] cloneOf1).objects 1).hitCount = 0 ∧
        ((s.alone stopping idle [cloneOf1, trapOf2] trapOf2).objects 1).hitCount = 1)
        (r.setResume true) :=
    Machine.exists_of_run (by decide +kernel)
  have handed : HandsOver stopping idle cloning s := ⟨_, r, true, 3, reported, reached, collected⟩
  obtain ⟨returns, superposes⟩ := manageChange_superposes stopping_threadwise
    (fun _ _ _ => rfl) handed known.callbackless known.batch
  obtain ⟨_, t, returned, -⟩ := returns.mpr turns
  obtain ⟨stopped, hits, -⟩ := superposes _ _ returned
  refine ⟨s, handed, _, t, returned, stopped.mpr (.inr ⟨trapOf2, by decide, stop⟩), ?_⟩
  have both : genuine [cloneOf1, trapOf2] = [cloneOf1, trapOf2] := rfl
  rw [hits 1, both]
  simp [unhit, silent, hit]

end Libdebug.Ptrace
