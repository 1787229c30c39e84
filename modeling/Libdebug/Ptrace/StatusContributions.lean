import Libdebug.Ptrace.CloneEvents

/-!
One turn of the loop of `manage_change`. A status that can be managed adds its contributions to the
tally, and one that cannot be managed raises: a known thread has lost its manager, or more hardware
breakpoints are set, disabled ones among them, than a new thread has debug registers for.
-/

namespace Libdebug.Ptrace

open Libdebug.Foundation Libdebug.Cffi

variable {K V : Type} {k : Kernel K} {u : UserCode K} {view : Memory → K → Int → V}
  {r s t : Debugger K} {tid : Int} {st : ThreadStatus} {results : List ThreadStatus}

/-! ### One status -/

/-- The new thread stops, and its registers can be read then. -/
def Debugger.Joins (k : Kernel K) (s : Debugger K) (results : List ThreadStatus) (tid : Int) :
    Prop :=
  ∃ world, s.awaited k results tid = some world ∧ (k.getregs world.os tid).isSome

/-- The instruction pointer that a thread is registered with: that of its node, if it has one,
else what the kernel says -/
theorem registerThread_ip (k : Kernel K) (g : GlobalState) (w : World K) (tid : Int) :
    (registerThread k g w tid).2.files (registerThread k g w tid).1 =
      match ((nodeIds g).filter (·.1 = tid)).head? with
      | some node => g.files node.2
      | none => (k.getregs w.os tid).getD (g.files g.fresh) := by
  have node : ((nodeIds g).filter (·.1 = tid)).head? =
      (g.tHead.find? (·.tid = tid)).map fun t => (t.tid, t.regs) := by
    rw [List.head?_filter, nodeIds, List.find?_map]
    rfl
  rw [node]
  rcases found : g.tHead.find? (·.tid = tid) with _ | t
  · simp only [registerThread, found, Option.map_none, GlobalState.getregs]
    rcases k.getregs w.os tid with _ | regs
    · rfl
    · exact Function.update_self ..
  · simp only [registerThread, found, Option.map_some]

namespace Undisturbed

/-- A thread that nothing has happened to is waited for with the same success. -/
theorem awaited (threadwise : Threadwise k view) (undisturbed : Undisturbed view tid s t)
    {world : World K} (ready : s.awaited k results tid = some world) :
    ∃ after, t.awaited k results tid = some after ∧
      view after.mem after.os tid = view world.mem world.os tid := by
  unfold Debugger.awaited World.waitpid at ready ⊢
  split at ready
  · rename_i announced
    rw [if_pos announced]
    exact ⟨t.world, rfl, Option.some.inj ready ▸ undisturbed.kernel⟩
  · rename_i silent
    rw [if_neg silent]
    obtain ⟨status, kernel⟩ := threadwise.waitpid undisturbed.kernel
    rcases before : k.waitpid s.world.mem s.world.os (.thread tid) false with
      ⟨_ | reported, mem, os⟩ <;> rw [before] at ready status kernel
    · cases ready
    · rcases after : k.waitpid t.world.mem t.world.os (.thread tid) false with
        ⟨_ | again, mem', os'⟩ <;> rw [after] at status kernel
      · cases status
      · exact ⟨_, rfl, Option.some.inj ready ▸ kernel⟩

/-- It joins as it would have joined before. -/
theorem joins (threadwise : Threadwise k view) (undisturbed : Undisturbed view tid s t)
    (joins : s.Joins k results tid) :
    t.Joins k results tid ∧ t.firstIp k results tid = s.firstIp k results tid := by
  obtain ⟨world, ready, readable⟩ := joins
  obtain ⟨after, waited, same⟩ := undisturbed.awaited threadwise ready
  have regs : k.getregs after.os tid = k.getregs world.os tid := threadwise.getregs same
  refine ⟨⟨after, waited, regs ▸ readable⟩, ?_⟩
  have node : ((nodeIds t.globalState).filter (·.1 = tid)).head? =
      ((nodeIds s.globalState).filter (·.1 = tid)).head? :=
    congrArg (·.1.head?) undisturbed.part
  simp only [Debugger.firstIp, ready, waited, registerThread_ip, node, regs]
  rcases known : ((nodeIds s.globalState).filter (·.1 = tid)).head? with _ | ⟨id, file⟩
  · obtain ⟨registers, read⟩ := Option.isSome_iff_exists.mp readable
    simp only [known, read, Option.getD_some]
  · have listed := List.mem_filter.mp (List.mem_of_head? known)
    have own : id = tid := of_decide_eq_true listed.2
    have owned : (tid, file) ∈ s.owners := List.mem_append_left _ (own ▸ listed.1)
    simp only [known, undisturbed.files file owned]

end Undisturbed

/-! ### Stops -/

section Stops

variable (threadwise : Threadwise k view) (reads : ReadsUserArea k) (sound : s.Sound)
  (callbackless : s.Callbackless)

/-- What a clone event comes to -/
def Debugger.birth (k : Kernel K) (s : Debugger K) (results : List ThreadStatus)
    (st : ThreadStatus) : List Contribution :=
  [.place (s.newThread k st)
    (s.ips (s.newThread k st) ++ [s.firstIp k results (s.newThread k st)])]

theorem cloneContributions_eq (clone : announcesClone st = true) :
    s.cloneContributions k results st = s.birth k results st := by
  rw [Debugger.cloneContributions, if_pos clone]
  rfl

section Events

variable {event : Nat}

include sound callbackless in
theorem handleEvent_other (other : event ≠ StopEvent.clone.value) :
    ∃ t, (handleEvent k st.tid event results).run s = .ok () t ∧ Contributed view [] [] s t := by
  rw [handleEvent, if_neg other]
  split
  · exact ⟨_, rfl, setForwardSignal_contributed sound callbackless false⟩
  · exact ⟨s, rfl, .refl sound callbackless⟩

/-- The new thread is handled, and the `SIGTRAP` is not forwarded. -/
theorem handleEvent_run :
    (handleEvent k st.tid StopEvent.clone.value results).run s =
      (handleClone k (s.newThread k st) results >>= fun _ =>
        modify (·.setForwardSignal false) : Py K Unit).run s := by
  rw [handleEvent, if_pos rfl, EStateM.run_bind, EStateM.run_get]
  dsimp only
  rw [Debugger.newThread]

variable {world : World K} (ready : s.awaited k results (s.newThread k st) = some world)

include reads ready in
theorem handleEvent_raises (unfit : ¬ s.HardwareFits) :
    ∃ e t, (handleEvent k st.tid StopEvent.clone.value results).run s = .error e t := by
  rw [handleEvent_run, EStateM.run_bind]
  rcases ended : (handleClone k (s.newThread k st) results).run s with ⟨_, t⟩ | ⟨e, t⟩
  · exact absurd ((handleClone_returns_iff ready reads).mp ⟨t, ended⟩) unfit
  · exact ⟨e, t, rfl⟩

include threadwise reads sound callbackless ready in
theorem handleEvent_clone (fits : s.HardwareFits) :
    ∃ t, (handleEvent k st.tid StopEvent.clone.value results).run s = .ok () t ∧
      Contributed view [s.newThread k st] (s.birth k results st) s t := by
  obtain ⟨t, returned⟩ := (handleClone_returns_iff ready reads).mpr fits
  have born := handleClone_contributed sound callbackless ready threadwise returned
  refine ⟨t.setForwardSignal false, ?_, ?_⟩
  · rw [handleEvent_run, EStateM.run_bind, returned]
    rfl
  · exact born.trans ((setForwardSignal_contributed born.sound born.callbackless false).mono
      (List.nil_subset _))

end Events

theorem Contributed.hardwareFits {mine : List Int} {contributions : List Contribution}
    (contributed : Contributed view mine contributions s t) : t.HardwareFits ↔ s.HardwareFits :=
  ⟨contributed.breakpoints.symm.hardwareFits, contributed.breakpoints.hardwareFits⟩

variable (u view) in
/-- The two steps of a trap before its event -/
theorem trap_contributed (reads : ReadsUserArea k) (sound : s.Sound) (callbackless : s.Callbackless)
    (managed : ∀ file, s.liveFile tid = some file →
      s.trapBreakpoint (s.globalState.files file .rip) = none →
      (s.hardwareBpHelpers.get? tid).isSome) :
    ∃ t, (handleBreakpoints k u tid >>= fun _ => finishStep).run s = .ok () t ∧
      (t.identities = s.identities ∧ t.world.os = s.world.os) ∧
      Contributed view [tid] (s.trapContributions k tid ++ [.endStep]) s t := by
  obtain ⟨a, trapped, ⟨contexts, kernel⟩, first⟩ :=
    handleBreakpoints_contributed view u sound callbackless reads managed
  obtain ⟨b, stepped, same, second⟩ :=
    finishStep_contributed view first.sound first.callbackless
  refine ⟨b, ?_, ⟨same.contexts.trans contexts, same.kernel.trans kernel⟩,
    first.trans (second.mono (List.nil_subset _))⟩
  rw [EStateM.run_bind, trapped]
  exact stepped

/-- A `SIGTRAP` is handled in three steps. -/
theorem internalSignalHandler_trap (trap : wstopsig st.status = SIGTRAP) :
    internalSignalHandler k u st.tid (wstopsig st.status) results st.status =
      ((handleBreakpoints k u st.tid >>= fun _ => finishStep) >>= fun _ =>
        handleEvent k st.tid (st.status / 256) results : Py K Unit) := by
  have notSyscall : ¬ SIGTRAP = syscallSigtrap := by decide
  have notStop : ¬ SIGTRAP = SIGSTOP := by decide
  rw [internalSignalHandler, trap]
  simp only [notSyscall, notStop, if_false, false_and, if_true, bind_assoc]
  rfl

/-- The contributions are those of the status, but that the registers of a new thread that does
not join may be anything. -/
structure Debugger.Owing (k : Kernel K) (s : Debugger K) (results : List ThreadStatus)
    (st : ThreadStatus) (expected contributions : List Contribution) : Prop where
  counts : contributions.filter (·.counts) = expected.filter (·.counts)
  joins : (wifstopped st.status = true → announcesClone st = true →
    s.Joins k results (s.newThread k st)) → contributions = expected

theorem Debugger.Owing.refl (k : Kernel K) (s : Debugger K) (results : List ThreadStatus)
    (st : ThreadStatus) (contributions : List Contribution) :
    s.Owing k results st contributions contributions := ⟨rfl, fun _ => rfl⟩

theorem trap_of_clone (clone : announcesClone st = true) : wstopsig st.status = SIGTRAP := by
  have event : st.status / 256 = StopEvent.clone.value := of_decide_eq_true clone
  rw [wstopsig, event]
  rfl

section Handler

variable (threadwise : Threadwise k view) (reads : ReadsUserArea k) (sound : s.Sound)
  (callbackless : s.Callbackless)

include sound callbackless in
theorem handle_syscall (syscall : wstopsig st.status = syscallSigtrap) :
    ∃ t, (internalSignalHandler k u st.tid (wstopsig st.status) results st.status).run s =
        .ok () t ∧ Contributed view [] (s.stopContributions k results st) s t := by
  obtain ⟨t, handled, first⟩ := handleSyscall_contributed view st.tid u sound callbackless
  refine ⟨t.setForwardSignal false, ?_, ?_⟩
  · rw [internalSignalHandler, EStateM.run_bind, EStateM.run_get]
    dsimp only
    rw [if_pos syscall, EStateM.run_bind, handled]
    rfl
  · rw [Debugger.stopContributions, if_pos syscall]
    have second : Contributed view [] [] t (t.setForwardSignal false) :=
      setForwardSignal_contributed first.sound first.callbackless false
    have all := first.trans second
    rwa [List.append_nil] at all

include sound callbackless in
theorem handle_stop (stop : wstopsig st.status = SIGSTOP) :
    ∃ t, (internalSignalHandler k u st.tid (wstopsig st.status) results st.status).run s =
        .ok () t ∧ Contributed view [] (s.stopContributions k results st) s t := by
  have notSyscall : ¬ SIGSTOP = syscallSigtrap := by decide
  have notTrap : ¬ SIGSTOP = SIGTRAP := by decide
  rw [Debugger.stopContributions, stop, if_neg notSyscall, if_pos rfl, internalSignalHandler,
    EStateM.run_bind, EStateM.run_get]
  dsimp only
  rw [if_neg notSyscall]
  cases forced : s.resumeContext.forceInterrupt with
  | true =>
      rw [if_pos ⟨rfl, rfl⟩]
      exact ⟨_, rfl, interrupt_contributed sound callbackless forced⟩
  | false =>
      rw [if_neg (by simp), if_neg notTrap]
      exact ⟨s, rfl, stop_contributed sound callbackless forced⟩

include sound callbackless in
theorem handle_other (notSyscall : wstopsig st.status ≠ syscallSigtrap)
    (notStop : wstopsig st.status ≠ SIGSTOP) (notTrap : wstopsig st.status ≠ SIGTRAP) :
    ∃ t, (internalSignalHandler k u st.tid (wstopsig st.status) results st.status).run s =
        .ok () t ∧ Contributed view [] (s.stopContributions k results st) s t := by
  refine ⟨s, ?_, ?_⟩
  · rw [internalSignalHandler, EStateM.run_bind, EStateM.run_get]
    dsimp only
    rw [if_neg notSyscall, if_neg fun both => notStop both.1, if_neg notTrap]
    rfl
  · rw [Debugger.stopContributions, if_neg notSyscall, if_neg notStop, if_neg notTrap]
    exact .refl sound callbackless

/-- A known thread that has hit no breakpoint has a manager. -/
def Debugger.Managed (s : Debugger K) (tid : Int) : Prop :=
  ∀ file, s.liveFile tid = some file →
    s.trapBreakpoint (s.globalState.files file .rip) = none → (s.hardwareBpHelpers.get? tid).isSome

theorem stopContributions_trap (trap : wstopsig st.status = SIGTRAP) :
    s.stopContributions k results st =
      s.trapContributions k st.tid ++ [.endStep] ++ s.cloneContributions k results st := by
  have notSyscall : ¬ SIGTRAP = syscallSigtrap := by decide
  have notStop : ¬ SIGTRAP = SIGSTOP := by decide
  rw [Debugger.stopContributions, trap, if_neg notSyscall, if_neg notStop, if_pos rfl,
    List.append_assoc]
  rfl

variable (results) in
include reads sound callbackless in
theorem handle_trap (trap : wstopsig st.status = SIGTRAP) (event : announcesClone st = false)
    (managed : s.Managed st.tid) :
    ∃ t, (internalSignalHandler k u st.tid (wstopsig st.status) results st.status).run s =
        .ok () t ∧ Contributed view [st.tid] (s.stopContributions k results st) s t ∧
      t.liveFile st.tid = s.liveFile st.tid := by
  obtain ⟨a, trapped, ⟨contexts, -⟩, first⟩ :=
    trap_contributed u view reads sound callbackless managed
  obtain ⟨t, evented, second⟩ : ∃ t, (handleEvent k st.tid (st.status / 256) results).run a =
      .ok () t ∧ Contributed view [] [] a t :=
    handleEvent_other first.sound first.callbackless (of_decide_eq_false event)
  have known : a.liveFile st.tid = s.liveFile st.tid :=
    Debugger.liveFile_of_identities contexts st.tid
  refine ⟨t, ?_, ?_, (second.others st.tid List.not_mem_nil).liveFile.trans known⟩
  · rw [internalSignalHandler_trap trap, EStateM.run_bind, trapped]
    exact evented
  · rw [stopContributions_trap trap, Debugger.cloneContributions,
      if_neg (Bool.eq_false_iff.mp event)]
    exact first.trans (second.mono (List.nil_subset _))

variable {world : World K} (clone : announcesClone st = true) (managed : s.Managed st.tid)
  (ready : s.awaited k results (s.newThread k st) = some world)
  (apart : s.newThread k st ≠ st.tid)

include threadwise reads sound callbackless clone managed ready apart

/-- Before the event of a clone the new thread is as it was when the status came in. -/
theorem before_clone : ∃ a world',
    (handleBreakpoints k u st.tid >>= fun _ => finishStep).run s = .ok () a ∧
      Contributed view [st.tid] (s.trapContributions k st.tid ++ [.endStep]) s a ∧
      a.liveFile st.tid = s.liveFile st.tid ∧ a.newThread k st = s.newThread k st ∧
      a.awaited k results (a.newThread k st) = some world' ∧
      (internalSignalHandler k u st.tid (wstopsig st.status) results st.status).run s =
        (handleEvent k st.tid StopEvent.clone.value results).run a := by
  obtain ⟨a, trapped, ⟨contexts, kernel⟩, first⟩ :=
    trap_contributed u view reads sound callbackless managed
  have same : a.newThread k st = s.newThread k st := by
    rw [Debugger.newThread, Debugger.newThread, kernel]
  have undisturbed : Undisturbed view (s.newThread k st) s a :=
    first.others _ (by simpa using apart)
  obtain ⟨world', ready', -⟩ := undisturbed.awaited threadwise ready
  refine ⟨a, world', trapped, first, Debugger.liveFile_of_identities contexts st.tid, same,
    same ▸ ready', ?_⟩
  have event : st.status / 256 = StopEvent.clone.value := of_decide_eq_true clone
  rw [internalSignalHandler_trap (trap_of_clone clone), EStateM.run_bind, trapped, event]

theorem handle_clone (stopped : wifstopped st.status = true) (fits : s.HardwareFits) :
    ∃ t contributions,
      (internalSignalHandler k u st.tid (wstopsig st.status) results st.status).run s =
        .ok () t ∧ Contributed view [st.tid, s.newThread k st] contributions s t ∧
      s.Owing k results st (s.stopContributions k results st) contributions ∧
      t.liveFile st.tid = s.liveFile st.tid := by
  obtain ⟨a, world', -, first, known, same, ready', body⟩ :=
    before_clone (u := u) threadwise reads sound callbackless clone managed ready apart
  obtain ⟨t, evented, second⟩ := handleEvent_clone threadwise reads first.sound
    first.callbackless ready' (first.hardwareFits.mpr fits)
  have all := (first.mono (List.subset_append_left [st.tid] [s.newThread k st])).trans
    (second.mono (same ▸ List.subset_append_right [st.tid] [s.newThread k st]))
  refine ⟨t, _, body.trans evented, all, ⟨?_, fun joining => ?_⟩, ?_⟩
  · rw [stopContributions_trap (trap_of_clone clone), cloneContributions_eq clone]
    simp only [List.filter_append]
    rfl
  · have undisturbed : Undisturbed view (s.newThread k st) s a :=
      first.others _ (by simpa using apart)
    have firstIp := (undisturbed.joins threadwise (joining stopped clone)).2
    rw [stopContributions_trap (trap_of_clone clone), cloneContributions_eq clone,
      Debugger.birth, Debugger.birth, same, undisturbed.ips, firstIp]
  · have undisturbed : Undisturbed view st.tid a t :=
      second.others _ (by simpa [same] using apart.symm)
    exact undisturbed.liveFile.trans known

end Handler

/-- After the handler the catchers have their turn. -/
theorem handleStop_after {mine : List Int} {contributions : List Contribution}
    (handled : (internalSignalHandler k u st.tid (wstopsig st.status) results st.status).run s =
      .ok () r)
    (first : Contributed view mine contributions s r)
    (known : r.liveFile st.tid = s.liveFile st.tid) :
    ∃ t, (internalSignalHandler k u st.tid (wstopsig st.status) results st.status >>= fun _ =>
        handleStop u st (wstopsig st.status)).run s = .ok () t ∧
      Contributed view mine (contributions ++ s.signalContributions st) s t := by
  obtain ⟨t, caught, second⟩ :=
    handleStop_contributed view u first.sound first.callbackless st
  have same : r.signalContributions st = s.signalContributions st := by
    rw [Debugger.signalContributions, Debugger.signalContributions, known]
  refine ⟨t, ?_, ?_⟩
  · rw [EStateM.run_bind, handled]
    exact caught
  · rw [← same]
    exact first.trans (second.mono (List.nil_subset _))

end Stops

/-! ### One turn of the loop -/

section Turns

theorem handleChange_stopped (stopped : wifstopped st.status = true)
    (running : s.resumeContext.isStartup = false) :
    (handleChange k u st results).run s =
      (internalSignalHandler k u st.tid (wstopsig st.status) results st.status >>= fun _ =>
        handleStop u st (wstopsig st.status)).run (s.setForwardSignal true) := by
  have startup : ¬ (s.setForwardSignal true).resumeContext.isStartup = true :=
    Bool.eq_false_iff.mp running
  rw [handleChange, EStateM.run_bind, EStateM.run_modify]
  dsimp only
  rw [EStateM.run_bind, EStateM.run_get]
  dsimp only
  rw [if_pos stopped, if_neg startup]

theorem handleChange_startup (stopped : wifstopped st.status = true)
    (startup : s.resumeContext.isStartup = true) :
    (handleChange k u st results).run s = .ok () (s.setForwardSignal true) := by
  have starting : (s.setForwardSignal true).resumeContext.isStartup = true := startup
  rw [handleChange, EStateM.run_bind, EStateM.run_modify]
  dsimp only
  rw [EStateM.run_bind, EStateM.run_get]
  dsimp only
  rw [if_pos stopped, if_pos starting]
  rfl

theorem not_gone_of_stopped (stopped : wifstopped st.status = true) :
    ¬ (wifexited st.status = true ∨ wifsignaled st.status = true) := by
  simp only [wifstopped, wifexited, wifsignaled, decide_eq_true_eq, Bool.and_eq_true] at stopped ⊢
  omega

variable (k u s results) in
/-- The thread is gone, or nothing is done. -/
theorem handleChange_gone (going : wifstopped st.status = false) : ∃ exitCode exitSignal,
    (handleChange k u st results).run s =
      (if wifexited st.status || wifsignaled st.status then
          handleExit st.tid exitCode exitSignal
        else pure ()).run (s.setForwardSignal true) := by
  have running : ¬ wifstopped st.status = true := Bool.eq_false_iff.mp going
  rw [handleChange, EStateM.run_bind, EStateM.run_modify]
  dsimp only
  rw [EStateM.run_bind, EStateM.run_get]
  dsimp only
  rw [if_neg running]
  cases exited : wifexited st.status with
  | true => exact ⟨_, _, rfl⟩
  | false =>
      cases signaled : wifsignaled st.status with
      | true => exact ⟨_, _, rfl⟩
      | false => exact ⟨none, none, rfl⟩

variable (threadwise : Threadwise k view) (reads : ReadsUserArea k) (sound : s.Sound)
  (callbackless : s.Callbackless)

theorem concerns_trap (trap : wstopsig st.status = SIGTRAP) (event : announcesClone st = false) :
    s.concerns k st = [st.tid] := by
  have notStop : ¬ SIGTRAP = SIGSTOP := by decide
  simp [Debugger.concerns, trap, notStop, event]

theorem concerns_clone (stopped : wifstopped st.status = true) (clone : announcesClone st = true) :
    s.concerns k st = [st.tid, s.newThread k st] := by
  have notStop : ¬ SIGTRAP = SIGSTOP := by decide
  simp [Debugger.concerns, trap_of_clone clone, notStop, clone, stopped]

theorem contributions_stopped (stopped : wifstopped st.status = true)
    (running : s.resumeContext.isStartup = false) :
    s.contributions k results st =
      s.stopContributions k results st ++ s.signalContributions st := by
  rw [Debugger.contributions, stopped, running]
  rfl

theorem Debugger.Owing.append {expected contributions : List Contribution}
    (owing : s.Owing k results st expected contributions) (more : List Contribution) :
    s.Owing k results st (expected ++ more) (contributions ++ more) where
  counts := by rw [List.filter_append, List.filter_append, owing.counts]
  joins joining := by rw [owing.joins joining]

/-- The new thread that a status announces can be waited for, and is another one. -/
def Debugger.Ready (k : Kernel K) (s : Debugger K) (results : List ThreadStatus)
    (st : ThreadStatus) : Prop :=
  announcesClone st = true →
    (∃ world, s.awaited k results (s.newThread k st) = some world) ∧ s.newThread k st ≠ st.tid

include threadwise reads sound callbackless in
theorem stopped_turn (stopped : wifstopped st.status = true)
    (managed : wstopsig st.status = SIGTRAP → s.Managed st.tid)
    (fits : announcesClone st = true → s.HardwareFits) (ready : s.Ready k results st) :
    ∃ t contributions,
      (internalSignalHandler k u st.tid (wstopsig st.status) results st.status >>= fun _ =>
        handleStop u st (wstopsig st.status)).run s = .ok () t ∧
      Contributed view (s.concerns k st) contributions s t ∧
      s.Owing k results st (s.stopContributions k results st ++ s.signalContributions st)
        contributions := by
  by_cases trap : wstopsig st.status = SIGTRAP
  · cases event : announcesClone st with
    | true =>
        obtain ⟨⟨world, waits⟩, apart⟩ := ready event
        obtain ⟨r, contributions, handled, first, owing, known⟩ := handle_clone (u := u) threadwise
          reads sound callbackless event (managed trap) waits apart stopped (fits event)
        obtain ⟨t, ended, all⟩ := handleStop_after handled first known
        refine ⟨t, _, ended, ?_, owing.append _⟩
        rwa [concerns_clone stopped event]
    | false =>
        obtain ⟨r, handled, first, known⟩ := handle_trap (u := u) results reads sound
          callbackless trap event (managed trap)
        obtain ⟨t, ended, all⟩ := handleStop_after handled first known
        refine ⟨t, _, ended, ?_, .refl _ _ _ _ _⟩
        rwa [concerns_trap trap event]
  · have shared : ∃ r,
        (internalSignalHandler k u st.tid (wstopsig st.status) results st.status).run s =
          .ok () r ∧ Contributed view [] (s.stopContributions k results st) s r := by
      by_cases syscall : wstopsig st.status = syscallSigtrap
      · exact handle_syscall sound callbackless syscall
      by_cases stop : wstopsig st.status = SIGSTOP
      · exact handle_stop sound callbackless stop
      · exact handle_other sound callbackless syscall stop trap
    obtain ⟨r, handled, first⟩ := shared
    have known := (first.others st.tid List.not_mem_nil).liveFile
    obtain ⟨t, ended, all⟩ := handleStop_after handled first known
    exact ⟨t, _, ended, all.mono (List.nil_subset _), .refl _ _ _ _ _⟩

include threadwise reads sound callbackless in
/-- **One turn**: a status that can be managed adds its contributions. -/
theorem handleChange_contributed (manageable : s.Manageable st)
    (ready : wifstopped st.status = true → s.resumeContext.isStartup = false →
      s.Ready k results st) :
    ∃ t contributions, (handleChange k u st results).run s = .ok () t ∧
      Contributed view (s.concerns k st) contributions s t ∧
      s.Owing k results st (s.contributions k results st) contributions := by
  have forwards : Contributed view [] [] s (s.setForwardSignal true) :=
    setForwardSignal_contributed sound callbackless true
  cases stopped : wifstopped st.status with
  | true =>
      cases startup : s.resumeContext.isStartup with
      | true =>
          refine ⟨_, [], handleChange_startup stopped startup,
            forwards.mono (List.nil_subset _), ?_⟩
          rw [Debugger.contributions, stopped, startup]
          exact .refl _ _ _ _ _
      | false =>
          rw [handleChange_stopped stopped startup, contributions_stopped stopped startup]
          have fits : announcesClone st = true → (s.setForwardSignal true).HardwareFits :=
            fun clone => forwards.hardwareFits.mpr (manageable.clone stopped startup clone)
          obtain ⟨t, contributions, ended, contributed, owing⟩ := stopped_turn (u := u)
            (s := s.setForwardSignal true) threadwise reads forwards.sound forwards.callbackless
            stopped (manageable.trap stopped startup) fits (ready stopped startup)
          exact ⟨t, contributions, ended, (forwards.mono (List.nil_subset _)).trans contributed,
            owing.counts, owing.joins⟩
  | false =>
      obtain ⟨exitCode, exitSignal, body⟩ :=
        handleChange_gone k u s results stopped
      have own : s.concerns k st = [st.tid] := by
        rw [Debugger.concerns, stopped]
        rfl
      have nothing : s.contributions k results st = [] := by
        rw [Debugger.contributions, stopped]
        rfl
      rw [body, own, nothing]
      split
      · rename_i gone
        obtain ⟨t, exits, contributed⟩ := handleExit_contributed view forwards.sound
          forwards.callbackless (manageable.exit (by simpa using gone)) exitCode exitSignal
        exact ⟨t, [], exits, (forwards.mono (List.nil_subset _)).trans contributed,
          .refl _ _ _ _ _⟩
      · exact ⟨_, [], rfl, forwards.mono (List.nil_subset _), .refl _ _ _ _ _⟩

theorem managed_of_returned (returned : (handleChange k u st results).run s = .ok () t)
    (stopped : wifstopped st.status = true) (running : s.resumeContext.isStartup = false)
    (trap : wstopsig st.status = SIGTRAP) : s.Managed st.tid := by
  intro file live elsewhere
  rcases helper : s.hardwareBpHelpers.get? st.tid with _ | manager
  · obtain ⟨e, raised⟩ := handleBreakpoints_raises (k := k) (u := u) (s := s.setForwardSignal true)
      live elsewhere helper
    rw [handleChange_stopped stopped running, EStateM.run_bind, internalSignalHandler_trap trap,
      EStateM.run_bind, EStateM.run_bind, raised] at returned
    cases returned
  · rfl

include threadwise reads sound callbackless in
/-- A status whose handling returns could be managed. -/
theorem manageable_of_returned (returned : (handleChange k u st results).run s = .ok () t)
    (ready : wifstopped st.status = true → s.resumeContext.isStartup = false →
      s.Ready k results st) : s.Manageable st := by
  have forwards : Contributed view [] [] s (s.setForwardSignal true) :=
    setForwardSignal_contributed sound callbackless true
  constructor
  · exact managed_of_returned returned
  · intro stopped running clone
    obtain ⟨⟨world, waits⟩, apart⟩ := ready stopped running clone
    have managed := managed_of_returned returned stopped running (trap_of_clone clone)
    obtain ⟨a, world', -, first, -, -, ready', body⟩ := before_clone (u := u)
      (s := s.setForwardSignal true) threadwise reads forwards.sound forwards.callbackless clone
      managed waits apart
    by_contra unfit
    have still : ¬ a.HardwareFits := fun fits =>
      unfit (forwards.hardwareFits.mp (first.hardwareFits.mp fits))
    obtain ⟨e, t', raised⟩ := handleEvent_raises reads ready' still
    rw [handleChange_stopped stopped running, EStateM.run_bind, body, raised] at returned
    cases returned
  · intro gone known
    rcases helper : s.hardwareBpHelpers.get? st.tid with _ | manager
    · have going : wifstopped st.status = false := by
        cases stopped : wifstopped st.status with
        | true => exact absurd gone (not_gone_of_stopped stopped)
        | false => rfl
      obtain ⟨exitCode, exitSignal, body⟩ :=
        handleChange_gone k u s results going
      obtain ⟨e, t', raised⟩ := handleExit_raises (s := s.setForwardSignal true) known helper
        exitCode exitSignal
      rw [body, if_pos (by simpa using gone), raised] at returned
      cases returned
    · rfl

end Turns

end Libdebug.Ptrace
