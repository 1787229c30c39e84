import Libdebug.Foundation.Contributions
import Libdebug.Ptrace.HardwareAgreement
import Libdebug.Ptrace.StatusContributions

/-!
The stop decision, and with it the counts of hits and the instruction pointers, is that of the
statuses together and of no order of them: each status goes by what belongs to the threads that it
concerns, no two statuses of a batch concern one thread, and what they contribute commutes. All of
this holds if every status can be managed, and one that cannot be takes those after it with it.
-/

namespace Libdebug.Ptrace

open Libdebug.Foundation Libdebug.Cffi

variable {K V : Type} {k : Kernel K} {u : UserCode K} {view : Memory → K → Int → V}
  {s t : Debugger K} {tid : Int} {st other : ThreadStatus} {results : List ThreadStatus}

/-! ### What a status goes by -/

theorem Undisturbed.symm (undisturbed : Undisturbed view tid s t) : Undisturbed view tid t s where
  part := undisturbed.part.symm
  files file member := (undisturbed.files file (undisturbed.owners.mp member)).symm
  kernel := undisturbed.kernel.symm

/-- The instruction pointers are the same after the thread has been set back. -/
theorem Undisturbed.setBack_ips (undisturbed : Undisturbed view tid s t) {file : Ptr}
    (live : s.liveFile tid = some file) (ip : Nat) :
    (t.setBack file ip).ips tid = (s.setBack file ip).ips tid := by
  have after : Undisturbed (fun _ _ _ => ()) tid (s.setBack file ip) (t.setBack file ip) := by
    refine ⟨undisturbed.part, fun regs member => ?_, rfl⟩
    have kept : t.globalState.files regs = s.globalState.files regs :=
      undisturbed.files regs member
    by_cases own : regs = file
    · subst own
      simp only [Debugger.setBack, Debugger.writeReg, GlobalState.setFile, Function.update_self,
        kept]
    · simp only [Debugger.setBack, Debugger.writeReg, GlobalState.setFile,
        Function.update_of_ne own, kept]
  exact after.ips

section Traps

variable (threadwise : Threadwise k view) (breakpoints : SameSettings s t)
  (undisturbed : Undisturbed view tid s t)

include threadwise breakpoints undisturbed in
theorem hitWatchpoint_congr : t.hitWatchpoint k tid = s.hitWatchpoint k tid := by
  have condition (bp : Ref) : (t.objects bp).condition = (s.objects bp).condition :=
    breakpoints.field (f := (·.condition)) (fun _ => rfl) bp
  have status := threadwise.peekuser undisturbed.kernel dr6Offset
  simp only [Debugger.hitWatchpoint, undisturbed.helper, status, condition]

include threadwise breakpoints undisturbed in
theorem trapContributions_congr : t.trapContributions k tid = s.trapContributions k tid := by
  have known := undisturbed.liveFile
  rcases live : s.liveFile tid with _ | file
  · simp only [Debugger.trapContributions, known, live]
  · have registers : t.globalState.files file = s.globalState.files file :=
      undisturbed.registers live
    simp only [Debugger.trapContributions, known, live, registers, breakpoints.activeBreakpoint,
      undisturbed.setBack_ips live, hitWatchpoint_congr threadwise breakpoints undisturbed]

end Traps

theorem Debugger.Manageable.congr (manageable : s.Manageable st)
    (breakpoints : SameSettings s t)
    (startup : t.resumeContext.isStartup = s.resumeContext.isStartup)
    (undisturbed : Undisturbed view st.tid s t) : t.Manageable st where
  trap stopped running trap file live elsewhere := by
    rw [undisturbed.liveFile] at live
    rw [undisturbed.registers live, Debugger.trapBreakpoint, breakpoints.activeBreakpoint]
      at elsewhere
    rw [undisturbed.helper]
    exact manageable.trap stopped (startup ▸ running) trap file live elsewhere
  clone stopped running clone :=
    breakpoints.hardwareFits (manageable.clone stopped (startup ▸ running) clone)
  exit gone known := by
    rw [undisturbed.liveFile] at known
    rw [undisturbed.helper]
    exact manageable.exit gone known

/-- A `SIGSTOP` can always be managed. -/
theorem manageable_stop (stopped : wifstopped st.status = true)
    (stop : wstopsig st.status = SIGSTOP) : s.Manageable st where
  trap _ _ trap := by
    rw [stop] at trap
    exact absurd trap (by decide)
  clone _ _ clone := by
    have trap := trap_of_clone clone
    rw [stop] at trap
    exact absurd trap (by decide)
  exit gone := absurd gone (not_gone_of_stopped stopped)

/-- Any other status concerns its own thread. -/
theorem mem_concerns (notStop : ¬ (wifstopped st.status = true ∧ wstopsig st.status = SIGSTOP)) :
    st.tid ∈ s.concerns k st := by
  have elsewhere : ¬ (wifstopped st.status && decide (wstopsig st.status = SIGSTOP)) = true := by
    simpa using notStop
  rw [Debugger.concerns, if_neg elsewhere]
  split
  · exact List.mem_cons_self
  · exact List.mem_singleton_self _

theorem concerns_stop (stopped : wifstopped st.status = true)
    (stop : wstopsig st.status = SIGSTOP) : s.concerns k st = [] := by
  simp [Debugger.concerns, stopped, stop]

/-- A clone event concerns the new thread as well. -/
theorem newThread_mem_concerns (stopped : wifstopped st.status = true)
    (clone : announcesClone st = true) : s.newThread k st ∈ s.concerns k st := by
  rw [concerns_clone stopped clone]
  exact List.mem_cons_of_mem _ (List.mem_singleton_self _)

/-- What a status concerns is its own thread, or the one that it announces. -/
theorem mem_concerns_cases (member : tid ∈ s.concerns k st) :
    ¬ (wifstopped st.status = true ∧ wstopsig st.status = SIGSTOP) ∧
      (tid = st.tid ∨ announcesClone st = true ∧ tid = s.newThread k st) := by
  by_cases stop : wifstopped st.status = true ∧ wstopsig st.status = SIGSTOP
  · rw [concerns_stop stop.1 stop.2] at member
    cases member
  · refine ⟨stop, ?_⟩
    cases event : wifstopped st.status && announcesClone st with
    | true =>
        obtain ⟨stopped, clone⟩ := Bool.and_eq_true_iff.mp event
        rw [concerns_clone stopped clone] at member
        rcases List.mem_cons.mp member with own | new
        · exact .inl own
        · exact .inr ⟨clone, List.mem_singleton.mp new⟩
    | false =>
        have elsewhere :
            ¬ (wifstopped st.status && decide (wstopsig st.status = SIGSTOP)) = true := by
          simpa using stop
        rw [Debugger.concerns, if_neg elsewhere, event] at member
        exact .inl (List.mem_singleton.mp member)

/-- The status of a new thread concerns none. -/
theorem stop_of_newborn (newborn : st.status = 4991) :
    wifstopped st.status = true ∧ wstopsig st.status = SIGSTOP := by
  rw [newborn]
  decide

/-- Since `s` nothing has happened to what the status goes by. -/
structure Pending (k : Kernel K) (view : Memory → K → Int → V) (s : Debugger K) (st : ThreadStatus)
    (t : Debugger K) : Prop where
  breakpoints : SameSettings s t
  startup : t.resumeContext.isStartup = s.resumeContext.isStartup
  undisturbed : ∀ tid ∈ s.concerns k st, Undisturbed view tid s t
  sound : t.Sound
  callbackless : t.Callbackless

namespace Pending

theorem refl (sound : s.Sound) (callbackless : s.Callbackless) : Pending k view s st s :=
  ⟨.refl s, rfl, fun _ _ => .refl s, sound, callbackless⟩

variable (threadwise : Threadwise k view) (pending : Pending k view s st t)

include pending in
theorem manageable_iff : t.Manageable st ↔ s.Manageable st := by
  by_cases stop : wifstopped st.status = true ∧ wstopsig st.status = SIGSTOP
  · exact iff_of_true (manageable_stop stop.1 stop.2) (manageable_stop stop.1 stop.2)
  · have undisturbed := pending.undisturbed st.tid (mem_concerns stop)
    exact ⟨fun manageable => manageable.congr pending.breakpoints.symm pending.startup.symm
      undisturbed.symm, fun manageable => manageable.congr pending.breakpoints pending.startup
      undisturbed⟩

include threadwise pending

theorem newThread (own : st.tid ∈ s.concerns k st) : t.newThread k st = s.newThread k st :=
  congrArg Nat.cast (threadwise.geteventmsg (pending.undisturbed st.tid own).kernel)

theorem concerns : t.concerns k st = s.concerns k st := by
  by_cases stop : wifstopped st.status = true ∧ wstopsig st.status = SIGSTOP
  · rw [concerns_stop stop.1 stop.2, concerns_stop stop.1 stop.2]
  · rw [Debugger.concerns, Debugger.concerns, pending.newThread threadwise (mem_concerns stop)]

/-- The new thread that the status announces -/
theorem born (stopped : wifstopped st.status = true) (clone : announcesClone st = true) :
    t.newThread k st = s.newThread k st ∧ Undisturbed view (s.newThread k st) s t := by
  have own : st.tid ∈ s.concerns k st := by
    rw [concerns_clone stopped clone]
    exact List.mem_cons_self
  exact ⟨pending.newThread threadwise own,
    pending.undisturbed _ (newThread_mem_concerns stopped clone)⟩

theorem ready (stopped : wifstopped st.status = true) (ready : s.Ready k results st) :
    t.Ready k results st := by
  intro clone
  obtain ⟨same, undisturbed⟩ := pending.born threadwise stopped clone
  obtain ⟨⟨world, waits⟩, apart⟩ := ready clone
  obtain ⟨after, waited, -⟩ := undisturbed.awaited threadwise waits
  rw [same]
  exact ⟨⟨after, waited⟩, apart⟩

theorem joins (stopped : wifstopped st.status = true) (clone : announcesClone st = true)
    (joins : s.Joins k results (s.newThread k st)) : t.Joins k results (t.newThread k st) := by
  obtain ⟨same, undisturbed⟩ := pending.born threadwise stopped clone
  rw [same]
  exact (undisturbed.joins threadwise joins).1

theorem cloneContributions (stopped : wifstopped st.status = true)
    (joins : announcesClone st = true → s.Joins k results (s.newThread k st)) :
    t.cloneContributions k results st = s.cloneContributions k results st := by
  cases clone : announcesClone st with
  | true =>
      obtain ⟨same, undisturbed⟩ := pending.born threadwise stopped clone
      have firstIp := (undisturbed.joins threadwise (joins clone)).2
      rw [cloneContributions_eq clone, cloneContributions_eq clone, Debugger.birth, Debugger.birth,
        same, undisturbed.ips, firstIp]
  | false => simp [Debugger.cloneContributions, clone]

/-- The status contributes what it would have contributed before. -/
theorem contributions
    (joins : announcesClone st = true → s.Joins k results (s.newThread k st)) :
    t.contributions k results st = s.contributions k results st := by
  cases stopped : wifstopped st.status with
  | false => simp [Debugger.contributions, stopped]
  | true =>
      rw [Debugger.contributions, Debugger.contributions, pending.startup]
      by_cases stop : wstopsig st.status = SIGSTOP
      · have notSyscall : ¬ SIGSTOP = syscallSigtrap := by decide
        simp only [Debugger.stopContributions, Debugger.signalContributions, stop, notSyscall,
          if_false, if_true, ne_eq, not_true_eq_false, false_and]
      · have own : st.tid ∈ s.concerns k st := mem_concerns fun both => stop both.2
        have undisturbed := pending.undisturbed st.tid own
        have known := undisturbed.liveFile
        have syscalls : ((t.liveFile st.tid).toList.map fun file =>
            Contribution.syscall (t.globalState.files file .origRax)) =
              (s.liveFile st.tid).toList.map fun file =>
                Contribution.syscall (s.globalState.files file .origRax) := by
          rcases live : s.liveFile st.tid with _ | file
          · rw [known, live]
            rfl
          · rw [known, live]
            simp only [Option.toList_some, List.map_cons, List.map_nil,
              undisturbed.registers live]
        rw [Debugger.stopContributions, Debugger.stopContributions, Debugger.signalContributions,
          Debugger.signalContributions, syscalls, known,
          trapContributions_congr threadwise pending.breakpoints undisturbed,
          pending.cloneContributions threadwise stopped joins]

end Pending

/-! ### Batches -/

/-- The statuses that are handled; an id of -1 is a spurious trap. -/
def genuine (results : List ThreadStatus) : List ThreadStatus := results.filter (·.tid ≠ -1)

/-- There is at most one status for a thread, and for a new one it is the `SIGSTOP` that it begins
with. Every clone event announces a thread of its own, which joins. -/
structure Debugger.Batch (k : Kernel K) (s : Debugger K) (results : List ThreadStatus) : Prop where
  once : ((genuine results).map (·.tid)).Nodup
  newborn : ∀ st ∈ genuine results, announcesClone st = true →
    ∀ other ∈ genuine results, other.tid = s.newThread k st → other.status = 4991
  births : ∀ st ∈ genuine results, announcesClone st = true →
    ∀ other ∈ genuine results, announcesClone other = true →
      s.newThread k st = s.newThread k other → st.tid = other.tid
  joins : ∀ st ∈ genuine results, announcesClone st = true →
    s.Joins k results (s.newThread k st)

/-- The two statuses concern different threads. -/
def Debugger.Apart (k : Kernel K) (s : Debugger K) (st other : ThreadStatus) : Prop :=
  (s.concerns k st).Disjoint (s.concerns k other)

namespace Debugger.Batch

variable (batch : s.Batch k results)

include batch

theorem newThread_ne (member : st ∈ genuine results) (clone : announcesClone st = true)
    (there : other ∈ genuine results) (going : tid ∈ s.concerns k other) :
    s.newThread k st ≠ other.tid := by
  intro same
  have newborn : other.status = 4991 := batch.newborn st member clone other there same.symm
  exact (mem_concerns_cases going).1 (stop_of_newborn newborn)

theorem ready (member : st ∈ genuine results) (stopped : wifstopped st.status = true) :
    s.Ready k results st := by
  intro clone
  obtain ⟨world, waits, -⟩ := batch.joins st member clone
  exact ⟨⟨world, waits⟩,
    batch.newThread_ne member clone member (newThread_mem_concerns stopped clone)⟩

/-- Statuses that concern one thread are those of one thread. -/
theorem tid_eq (member : st ∈ genuine results) (there : other ∈ genuine results)
    (mine : tid ∈ s.concerns k st) (yours : tid ∈ s.concerns k other) : st.tid = other.tid := by
  rcases (mem_concerns_cases mine).2 with rfl | ⟨clone, rfl⟩
  · rcases (mem_concerns_cases yours).2 with same | ⟨clone', new⟩
    · exact same
    · exact absurd new.symm (batch.newThread_ne there clone' member mine)
  · rcases (mem_concerns_cases yours).2 with same | ⟨clone', new⟩
    · exact absurd same (batch.newThread_ne member clone there yours)
    · exact batch.births st member clone other there clone' new

theorem apart : (genuine results).Pairwise (s.Apart k) := by
  have distinct : (genuine results).Pairwise fun st other => st.tid ≠ other.tid :=
    List.pairwise_map.mp batch.once
  refine distinct.imp_of_mem fun member there different => ?_
  exact fun _ mine yours => different (batch.tid_eq member there mine yours)

end Debugger.Batch

/-! ### What a status places -/

theorem place_mem_trap {ips : List Nat} (member : .place tid ips ∈ s.trapContributions k st.tid) :
    tid = st.tid ∧ ∃ file, s.liveFile st.tid = some file ∧
      ips = (s.setBack file (s.globalState.files file .rip)).ips st.tid := by
  rcases live : s.liveFile st.tid with _ | file
  · simp [Debugger.trapContributions, live] at member
  · rw [Debugger.trapContributions, live] at member
    dsimp only at member
    split at member
    · simp at member
    · obtain ⟨rfl, rfl⟩ : tid = st.tid ∧
          ips = (s.setBack file (s.globalState.files file .rip)).ips st.tid := by
        simpa using member
      exact ⟨rfl, file, rfl, rfl⟩
    · simp at member

/-- A thread is placed where its own trap sets it back, or where it begins. -/
theorem place_mem {ips : List Nat} (member : .place tid ips ∈ s.contributions k results st) :
    (wstopsig st.status = SIGTRAP ∧ tid = st.tid ∧ ∃ file, s.liveFile st.tid = some file ∧
      ips = (s.setBack file (s.globalState.files file .rip)).ips st.tid) ∨
    (announcesClone st = true ∧ tid = s.newThread k st ∧
      ips = s.ips tid ++ [s.firstIp k results tid]) := by
  have handled : (wstopsig st.status = SIGTRAP ∧ .place tid ips ∈ s.trapContributions k st.tid) ∨
      .place tid ips ∈ s.cloneContributions k results st := by
    rw [Debugger.contributions] at member
    split at member
    · rcases List.mem_append.mp member with here | signal
      · rw [Debugger.stopContributions] at here
        split_ifs at here with syscall stop trap
        · simp at here
        · simp at here
        · simpa [trap] using here
        · simp at here
      · rw [Debugger.signalContributions] at signal
        split_ifs at signal <;> simp at signal
    · cases member
  rcases handled with ⟨trap, here⟩ | clone
  · exact .inl ⟨trap, place_mem_trap here⟩
  · right
    rw [Debugger.cloneContributions] at clone
    split_ifs at clone with event
    · obtain ⟨rfl, rfl⟩ : tid = s.newThread k st ∧
          ips = s.ips (s.newThread k st) ++ [s.firstIp k results (s.newThread k st)] := by
        simpa using clone
      exact ⟨event, rfl, rfl⟩
    · cases clone

/-- **No two contributions of a batch place one thread differently.** -/
theorem Debugger.Batch.compatible (batch : s.Batch k results) {c d : Contribution}
    (member : c ∈ (genuine results).flatMap (s.contributions k results))
    (there : d ∈ (genuine results).flatMap (s.contributions k results)) : c.Compatible d := by
  cases c <;> cases d <;> try trivial
  case place.place threadId ips otherId others =>
    rintro rfl
    obtain ⟨st, mine, member⟩ := List.mem_flatMap.mp member
    obtain ⟨other, yours, there⟩ := List.mem_flatMap.mp there
    have notTrap {a b : ThreadStatus} (first : a ∈ genuine results) (second : b ∈ genuine results)
        (clone : announcesClone a = true) (new : b.tid = s.newThread k a) :
        wstopsig b.status ≠ SIGTRAP := by
      rw [(stop_of_newborn (batch.newborn a first clone b second new)).2]
      decide
    rcases place_mem member with ⟨trap, own, file, live, rfl⟩ | ⟨clone, new, rfl⟩
    · rcases place_mem there with ⟨-, own', file', live', rfl⟩ | ⟨clone, new, -⟩
      · have same : st.tid = other.tid := own.symm.trans own'
        rw [← same] at live' ⊢
        rw [Option.some.inj (live.symm.trans live')]
      · exact absurd trap (notTrap yours mine clone (own.symm.trans new))
    · rcases place_mem there with ⟨trap, own, -⟩ | ⟨-, -, rfl⟩
      · exact absurd trap (notTrap mine yours clone (own.symm.trans new))
      · rfl

/-! ### Turns -/

section Turns

variable (threadwise : Threadwise k view) (reads : ReadsUserArea k) (batch : s.Batch k results)

include threadwise reads batch

/-- **The statuses of a batch are handled independently of each other.** -/
theorem handleChange_independent :
    Independent (fun st => handleChange k u st results) Debugger.tally Tally.add
      (s.contributions k results) (fun st t => st ∈ genuine results ∧ Pending k view s st t)
      (s.Apart k) s.Manageable := by
  constructor
  · rintro st t ⟨member, pending⟩ manageable
    obtain ⟨r, contributions, ended, contributed, owing⟩ := handleChange_contributed (u := u)
      threadwise reads pending.sound pending.callbackless (pending.manageable_iff.mpr manageable)
      fun stopped _ => pending.ready threadwise stopped (batch.ready member stopped)
    refine ⟨r, ended, ?_, ?_⟩
    · have expected := pending.contributions threadwise fun clone =>
        batch.joins st member clone
      rw [contributed.tally, owing.joins fun stopped clone =>
        pending.joins threadwise stopped clone (batch.joins st member clone), expected]
      rfl
    · rintro other apart ⟨there, untouched⟩
      have mine := pending.concerns threadwise
      refine ⟨there, untouched.breakpoints.trans contributed.breakpoints,
        contributed.startup.trans untouched.startup, fun tid yours => ?_, contributed.sound,
        contributed.callbackless⟩
      exact (untouched.undisturbed tid yours).trans
        (contributed.others tid fun here => apart (mine ▸ here) yours)
  · rintro st t ⟨member, pending⟩ unmanageable
    rcases ended : (handleChange k u st results).run t with ⟨_, r⟩ | ⟨e, r⟩
    · refine absurd (pending.manageable_iff.mp ?_) unmanageable
      exact manageable_of_returned (u := u) threadwise reads pending.sound pending.callbackless
        ended fun stopped _ => pending.ready threadwise stopped (batch.ready member stopped)
    · exact ⟨e, r, rfl⟩

end Turns

/-! ### The order of the statuses -/

theorem handleChange_perm {ys : List ThreadStatus} (same : ys.Perm results) :
    handleChange k u st ys = handleChange k u st results := by
  have awaits (tid : Int) : awaitNewThread k tid ys = awaitNewThread k tid results := by
    unfold awaitNewThread
    rw [same.any_eq]
  have clones (tid : Int) : handleClone k tid ys = handleClone k tid results := by
    unfold handleClone
    rw [awaits]
  have events (pid : Int) (event : Nat) :
      handleEvent k pid event ys = handleEvent k pid event results := by
    unfold handleEvent
    simp only [clones]
  unfold handleChange internalSignalHandler
  simp only [events]

theorem manageChange_perm {ys : List ThreadStatus} (same : ys.Perm results) :
    manageChange k u ys = (genuine ys).forM fun st => handleChange k u st results := by
  have turns : (fun st => handleChange k u st ys) = fun st => handleChange k u st results :=
    funext fun _ => handleChange_perm same
  rw [manageChange, turns]
  rfl

/-! ### One status alone -/

theorem genuine_singleton (st : ThreadStatus) :
    genuine [st] = if st.tid = -1 then [] else [st] := by
  by_cases spurious : st.tid = -1 <;> simp [genuine, spurious]

theorem contributions_counts (results others : List ThreadStatus) :
    (s.contributions k results st).filter (·.counts) =
      (s.contributions k others st).filter (·.counts) := by
  have births (results : List ThreadStatus) :
      (s.cloneContributions k results st).filter (·.counts) = [] := by
    rw [Debugger.cloneContributions]
    split <;> rfl
  have stops : (s.stopContributions k results st).filter (·.counts) =
      (s.stopContributions k others st).filter (·.counts) := by
    rw [Debugger.stopContributions, Debugger.stopContributions]
    split_ifs
    · rfl
    · rfl
    · rw [List.filter_append, List.filter_append, List.filter_cons, List.filter_cons, births,
        births]
    · rfl
  rw [Debugger.contributions, Debugger.contributions]
  split
  · rw [List.filter_append, List.filter_append, stops]
  · rfl

/-- The new thread could be waited for, if its registration has returned. -/
theorem awaited_of_returned (returned : (awaitNewThread k tid results).run s = .ok () t) :
    ∃ world, s.awaited k results tid = some world := by
  unfold awaitNewThread at returned
  unfold Debugger.awaited
  split at returned
  · rename_i announced
    exact ⟨s.world, if_pos announced⟩
  · rename_i silent
    rw [if_neg silent]
    rw [osWaitpid, EStateM.run_bind, callLib_run] at returned
    dsimp only at returned
    rcases waited : s.world.waitpid k .handleClone (.thread tid) false with ⟨_ | status, after⟩
    · rw [waited] at returned
      cases returned
    · exact ⟨after, rfl⟩

section Alone

variable (threadwise : Threadwise k view) (reads : ReadsUserArea k) (sound : s.Sound)
  (callbackless : s.Callbackless)

include threadwise reads sound callbackless in
theorem ready_of_returned (returned : (handleChange k u st results).run s = .ok () t)
    (apart : announcesClone st = true → s.newThread k st ≠ st.tid)
    (stopped : wifstopped st.status = true) (running : s.resumeContext.isStartup = false) :
    s.Ready k results st := by
  intro clone
  refine ⟨?_, apart clone⟩
  have forwards : Contributed view [] [] s (s.setForwardSignal true) :=
    setForwardSignal_contributed sound callbackless true
  have managed := managed_of_returned returned stopped running (trap_of_clone clone)
  obtain ⟨a, trapped, ⟨-, kernel⟩, first⟩ := trap_contributed u view
    (s := s.setForwardSignal true) reads forwards.sound forwards.callbackless managed
  rw [handleChange_stopped stopped running] at returned
  obtain ⟨_, r, handled, -⟩ := ok_of_bind returned
  rw [internalSignalHandler_trap (trap_of_clone clone)] at handled
  obtain ⟨_, b, before, evented⟩ := ok_of_bind handled
  obtain rfl : a = b := by
    rw [trapped] at before
    cases before
    rfl
  have event : st.status / 256 = StopEvent.clone.value := of_decide_eq_true clone
  rw [event, handleEvent_run] at evented
  obtain ⟨_, c, cloned, -⟩ := ok_of_bind evented
  obtain ⟨_, d, waited, -⟩ := ok_of_bind cloned
  obtain ⟨world, waits⟩ := awaited_of_returned waited
  have same : a.newThread k st = s.newThread k st := by
    rw [Debugger.newThread, Debugger.newThread, kernel]
    rfl
  rw [same] at waits
  have undisturbed : Undisturbed view (s.newThread k st) (s.setForwardSignal true) a :=
    first.others _ (by simpa using apart clone)
  obtain ⟨after, ready, -⟩ := undisturbed.symm.awaited threadwise waits
  exact ⟨after, ready⟩

variable (batch : s.Batch k results) (member : st ∈ genuine results)

/-- What all statuses of the batch come to -/
def Debugger.total (k : Kernel K) (s : Debugger K) (results : List ThreadStatus) : Tally :=
  s.tally.addAll ((genuine results).flatMap (s.contributions k results))

include batch in
/-- The total is that of one status with the others after it. -/
theorem Debugger.Batch.total_eq {first others : List ThreadStatus}
    (same : (genuine results).Perm (first ++ others)) : s.total k results =
      s.tally.addAll (first.flatMap (s.contributions k results) ++
        others.flatMap (s.contributions k results)) := by
  rw [Debugger.total, ← List.flatMap_append]
  exact (same.flatMap_right _).foldl_eq' (fun c member d there tally =>
    tally.add_right_comm (batch.compatible member there)) s.tally

include threadwise reads sound callbackless batch member in
/-- A status that stops the process alone stops it in the batch. -/
theorem total_stops (manageable : s.Manageable st)
    (returned : (handleChange k u st [st]).run s = .ok () t)
    (stops : t.resumeContext.resume = false) : (s.total k results).resume = false := by
  have apart (clone : announcesClone st = true) : s.newThread k st ≠ st.tid := by
    intro same
    have newborn := batch.newborn st member clone st member same.symm
    rw [announcesClone, newborn] at clone
    exact absurd clone (by decide)
  obtain ⟨r, contributions, ended, contributed, owing⟩ := handleChange_contributed (u := u)
    threadwise reads sound callbackless manageable
    (ready_of_returned threadwise reads sound callbackless returned apart)
  obtain rfl : t = r := by
    rw [returned] at ended
    cases ended
    rfl
  have alone : (s.tally.addAll (s.contributions k results st)).resume = false := by
    rw [Tally.resume_counts, contributions_counts results [st], ← owing.counts,
      ← Tally.resume_counts, ← contributed.tally]
    exact stops
  obtain ⟨before, after, split⟩ := List.append_of_mem member
  have same : (genuine results).Perm ([st] ++ (before ++ after)) := by
    rw [split]
    exact List.perm_middle
  rw [batch.total_eq same]
  apply Tally.addAll_mono
  simpa using alone

end Alone

/-! ### The decision -/

/-- What `manage_change` decides, counts and shows -/
structure Outcome where
  resume : Bool
  breakpointHits : Ref → Nat
  syscallHits : Nat → Option Nat
  signalHits : Nat → Option Nat
  /-- the instruction pointers of the contexts with an id -/
  ips : Int → List Nat

def Tally.outcome (tally : Tally) : Outcome where
  resume := tally.resume
  breakpointHits := tally.hits
  syscallHits number := (tally.handlers number).map (·.hitCount)
  signalHits number := (tally.catchers number).map (·.hitCount)
  ips := tally.ips

def Debugger.outcome (s : Debugger K) : Outcome where
  resume := s.resumeContext.resume
  breakpointHits bp := (s.objects bp).hitCount
  syscallHits number := (s.handledSyscalls.get? number).map (·.hitCount)
  signalHits number := (s.caughtSignals.get? number).map (·.hitCount)
  ips := s.ips

/-- Whatever the order of the statuses, `manage_change` ends with one outcome, and a status that
alone keeps the process from being resumed does so among the others. -/
def OrderIndependent (k : Kernel K) (u : UserCode K) (results : List ThreadStatus)
    (s : Debugger K) : Prop :=
  ∃ outcome : Outcome,
    (∀ ys : List ThreadStatus, ys.Perm results →
      Returns (manageChange k u ys) (fun _ t => t.outcome = outcome) s) ∧
    ∀ st ∈ results, Returning (manageChange k u [st])
      (fun _ t => t.resumeContext.resume = false → outcome.resume = false) s

/-- **The order of the statuses** does not matter if and only if each of them can be managed. -/
theorem orderIndependent_iff (threadwise : Threadwise k view) (reads : ReadsUserArea k)
    (sound : s.Sound) (callbackless : s.Callbackless) (batch : s.Batch k results) :
    OrderIndependent k u results s ↔ ∀ st ∈ genuine results, s.Manageable st := by
  have independent := handleChange_independent (u := u) threadwise reads batch
  have own : ∀ st ∈ genuine results, st ∈ genuine results ∧ Pending k view s st s :=
    fun st member => ⟨member, .refl sound callbackless⟩
  have commute : ∀ c ∈ (genuine results).flatMap (s.contributions k results),
      ∀ d ∈ (genuine results).flatMap (s.contributions k results), ∀ tally : Tally,
        (tally.add c).add d = (tally.add d).add c :=
    fun c member d there tally => tally.add_right_comm (batch.compatible member there)
  have symmetric (st other : ThreadStatus) (apart : s.Apart k st other) : s.Apart k other st :=
    apart.symm
  have orders := independent.orderIndependent_iff symmetric batch.apart own commute
  constructor
  · rintro ⟨outcome, ends, -⟩
    obtain ⟨_, t, returned, -⟩ := ends results (.refl results)
    rw [manageChange_perm (.refl results)] at returned
    exact independent.manageable_of_returned batch.apart own returned
  · intro manageable
    refine ⟨(s.total k results).outcome, fun ys same => ?_, fun st member _ t returned stops => ?_⟩
    · obtain ⟨_, t, returned, counted⟩ := orders.mpr manageable (genuine ys) (same.filter _)
      exact ⟨⟨⟩, t, (congrArg (·.run s) (manageChange_perm same)).trans returned,
        congrArg Tally.outcome counted⟩
    · rw [manageChange_perm (.refl [st]), genuine_singleton] at returned
      split at returned
      · cases returned
        exact Tally.addAll_mono [] _ stops
      · rename_i handled
        obtain ⟨_, r, turned, ended⟩ := ok_of_bind returned
        cases ended
        have here : st ∈ genuine results := List.mem_filter.mpr ⟨member, decide_eq_true handled⟩
        exact total_stops threadwise reads sound callbackless batch here (manageable st here) turned
          stops

/-! ### Sessions -/

/-- The first part of `wait`: what has been collected is noted. -/
def collect (k : Kernel K) (fuel : Nat) : Py K (List ThreadStatus) := do
  let results ← waitResults k fuel
  modify (·.noteManaged results)
  pure results

theorem wait_eq (fuel : Nat) : wait k u fuel = collect k fuel >>= manageChange k u := by
  simp only [wait, collect, bind_assoc, pure_bind]

/-- The states in which a session hands statuses over to `manage_change` -/
def HandsOver (k : Kernel K) (u : UserCode K) (world : World K) (s : Debugger K) : Prop :=
  ∃ commands r resume fuel reported, (debugging k u).run (.initial world) commands = some r ∧
    (collect k fuel).run (r.setResume resume) = .ok reported s

theorem HandsOver.sound {world : World K} (handed : HandsOver k u world s) : s.Sound := by
  obtain ⟨commands, r, resume, fuel, reported, reached, collected⟩ := handed
  have files : r.FilesApart := filesApart_invariant.reachable (filesApart_initial world) reached
  have catchable : r.Catchable := reachable_catchable reached
  constructor
  · have collects : Maintains Debugger.FilesApart (collect k fuel) :=
      (filesApart_invariant.waitResults fuel).bind fun _ => Keeps.bind
        (Keeps.modify fun _ before => before.of_owners (fun _ member => member) rfl)
        fun _ => Keeps.pure _
    exact collects.of_ok collected (files.of_owners (fun _ member => member) rfl)
  · have collects : SparesCatchers (collect k fuel) :=
      (SparesCatchers.waitResults fuel).bind fun _ => Keeps.bind (Keeps.modify fun _ => rfl)
        fun _ => Keeps.pure _
    have same : s.caughtSignals.keys = (r.setResume resume).caughtSignals.keys :=
      collects.of_ok collected
    rw [Debugger.Catchable, same]
    exact catchable

/-- **Every order of a batch** ends with one decision, one count of hits and one place of every
thread, and no status is overruled, if and only if each of the statuses can be managed. -/
theorem order_independent_iff_manageable {world : World K} (threadwise : Threadwise k view)
    (reads : ReadsUserArea k) (handed : HandsOver k u world s) (callbackless : s.Callbackless)
    (batch : s.Batch k results) :
    OrderIndependent k u results s ↔ ∀ st ∈ genuine results, s.Manageable st :=
  orderIndependent_iff threadwise reads handed.sound callbackless batch

/-! ### Four hardware breakpoints and five -/

/-- Every thread that is waited for stops at once. -/
def stopping : Kernel Script :=
  { scripted with
    waitpid := fun mem os target nohang =>
      match target with
      | .thread tid => (some ⟨tid, 4991, .tracerStop⟩, mem, os)
      | .group _ => scripted.waitpid mem os target nohang }

theorem stopping_threadwise : Threadwise stopping
    fun _ os tid => (os.registers tid, os.user tid, os.message tid) where
  getregs same := congrArg (·.1) same
  peekuser same address := by
    have users := congrArg (·.2.1) same
    exact congrArg (fun user : Nat → Nat => some (user address)) users
  geteventmsg same := congrArg (·.2.2) same
  waitpid same := ⟨rfl, same⟩
  waitpid_other _ _ _ _ _ := rfl
  pokeuser_other := by
    rintro mem os os' tid address value other written different
    obtain rfl := Option.some.inj written
    simp only [Function.update_of_ne different]

def cloneOf1 : ThreadStatus := ⟨1, 256 * StopEvent.clone.value + 0x7f, .event⟩

def trapOf2 : ThreadStatus := ⟨2, 256 * SIGTRAP + 0x7f, .debugRegister⟩

/-- Thread 2 is at a hardware breakpoint when thread 1 announces thread 3. -/
def cloning : World Script := .nops
  { registers := fun tid => some fun _ => if tid = 2 then 0x2001 else 0x1000
    message := fun _ => 3
    reports := [some ⟨1, 4991, .tracerStop⟩, none, some cloneOf1, some trapOf2, none] }

/-- Four hardware breakpoints, one of which has been disabled -/
def fourHardware : List Command :=
  [.registerNewThread 1, .registerNewThread 2, createHardware 0x2000, createHardware 0x2001,
    createHardware 0x2002, createHardware 0x2003, .act (.disableBreakpoint 0), .cont, .interrupt,
    .wait 3]

section Clones

variable {s : Debugger Script}

/-- What is to be known of a state in which the two statuses are handed over -/
def Debugger.AtClone (s : Debugger Script) : Prop :=
  ((∀ bp ∈ s.hittable, (s.objects bp).callback = none) ∧ s.handledSyscalls.values = [] ∧
    s.caughtSignals.values = []) ∧
  s.newThread stopping cloneOf1 = 3 ∧
  (s.awaited stopping [cloneOf1, trapOf2] 3).any fun world => (stopping.getregs world.os 3).isSome

instance : DecidablePred Debugger.AtClone := fun _ => inferInstanceAs (Decidable ((_ ∧ _) ∧ _))

namespace Debugger.AtClone

variable (atClone : s.AtClone)

include atClone

theorem callbackless : s.Callbackless := by
  obtain ⟨⟨breakpoints, handlers, catchers⟩, -⟩ := atClone
  refine ⟨breakpoints, fun number handler found => ?_, fun number catcher found => ?_⟩
  · have member := Dict.mem_values.mpr ⟨number, found⟩
    rw [handlers] at member
    cases member
  · have member := Dict.mem_values.mpr ⟨number, found⟩
    rw [catchers] at member
    cases member

theorem batch : s.Batch stopping [cloneOf1, trapOf2] := by
  obtain ⟨-, announces, awaits⟩ := atClone
  have both : genuine [cloneOf1, trapOf2] = [cloneOf1, trapOf2] := rfl
  have first {st : ThreadStatus} (member : st ∈ genuine [cloneOf1, trapOf2])
      (clone : announcesClone st = true) : st = cloneOf1 := by
    rcases List.mem_pair.mp (both ▸ member) with rfl | rfl
    · rfl
    · exact absurd clone (by decide)
  have joins : s.Joins stopping [cloneOf1, trapOf2] 3 := by
    obtain ⟨world, waits, readable⟩ := (Option.any_eq_true _ _).mp awaits
    exact ⟨world, waits, readable⟩
  constructor
  · decide
  · intro st member clone other there born
    rw [first member clone, announces] at born
    rcases List.mem_pair.mp (both ▸ there) with rfl | rfl <;> exact absurd born (by decide)
  · intro st member clone other there announced _
    rw [first member clone, first there announced]
  · intro st member clone
    rw [first member clone, announces]
    exact joins

end Debugger.AtClone

theorem manageable_of_managed {K : Type} {s : Debugger K} {st : ThreadStatus}
    (managed : (s.hardwareBpHelpers.get? st.tid).isSome) (fits : s.HardwareFits) :
    s.Manageable st :=
  ⟨fun _ _ _ _ _ _ => managed, fun _ _ _ => fits, fun _ _ => managed⟩

end Clones

/-- With four hardware breakpoints the two orders agree. -/
theorem four_hardware_order_independent : ∃ s, HandsOver stopping idle cloning s ∧
    OrderIndependent stopping idle [cloneOf1, trapOf2] s := by
  obtain ⟨r, reached, reported, s, collected, known, managed, count, settings⟩ : ∃ r,
      (debugging stopping idle).run (.initial cloning) (fourHardware ++ [.cont]) = some r ∧
      Returns (collect stopping 3) (fun _ s => s.AtClone ∧
        (∀ st ∈ [cloneOf1, trapOf2], (s.hardwareBpHelpers.get? st.tid).isSome) ∧
        s.hardwareBreakpoints.length ≤ dbregsCount ∧ ∀ bp ∈ s.hardwareBreakpoints,
          (ctrlCondVal (s.objects bp).condition).isSome ∧
            (ctrlLenVal (s.objects bp).length).isSome) (r.setResume true) :=
    Machine.exists_of_run (by decide +kernel)
  have handed : HandsOver stopping idle cloning s := ⟨_, r, true, 3, reported, reached, collected⟩
  refine ⟨s, handed, (order_independent_iff_manageable stopping_threadwise (fun _ _ _ => rfl) handed
    known.callbackless known.batch).mpr fun st member => ?_⟩
  exact manageable_of_managed (managed st (List.mem_of_mem_filter member)) ⟨count, settings⟩

/-- With a fifth one the clone event cannot be managed: where it comes first, the hit of thread 2
is lost. -/
theorem fifth_hardware_loses_hit : ∃ s, HandsOver stopping idle cloning s ∧ s.Callbackless ∧
    s.Batch stopping [cloneOf1, trapOf2] ∧
    ((stateAfter (manageChange stopping idle [cloneOf1, trapOf2]) s).objects 1).hitCount = 0 ∧
    ((stateAfter (manageChange stopping idle [trapOf2, cloneOf1]) s).objects 1).hitCount = 1 ∧
    ¬ OrderIndependent stopping idle [cloneOf1, trapOf2] s := by
  obtain ⟨r, reached, reported, s, collected, known, lost, counted, raises⟩ : ∃ r,
      (debugging stopping idle).run (.initial cloning)
        (fourHardware ++ [createHardware 0x2004, .cont]) = some r ∧
      Returns (collect stopping 3) (fun _ s => s.AtClone ∧
        ((stateAfter (manageChange stopping idle [cloneOf1, trapOf2]) s).objects 1).hitCount = 0 ∧
        ((stateAfter (manageChange stopping idle [trapOf2, cloneOf1]) s).objects 1).hitCount = 1 ∧
        ¬ Returns (manageChange stopping idle [cloneOf1, trapOf2]) (fun _ _ => True) s)
        (r.setResume true) :=
    Machine.exists_of_run (by decide +kernel)
  refine ⟨s, ⟨_, r, true, 3, reported, reached, collected⟩, known.callbackless, known.batch, lost,
    counted, ?_⟩
  rintro ⟨outcome, ends, -⟩
  obtain ⟨_, t, returned, -⟩ := ends _ (.refl _)
  exact raises ⟨_, t, returned, trivial⟩

end Libdebug.Ptrace
