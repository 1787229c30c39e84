import Libdebug.Ptrace.StatusTurns

/-!
The registration of a thread that a clone event announces: it is waited for, its node and its
context are made, and the hardware breakpoints are installed in its debug registers. All of this
concerns the new thread only.
-/

namespace Libdebug.Ptrace

open Libdebug.Foundation Libdebug.Cffi

variable {K V : Type} {k : Kernel K} {view : Memory → K → Int → V} {r s t : Debugger K} {tid : Int}

/-! ### The debug registers of the new thread -/

section Installing

/-- What is seen of another thread while a breakpoint is installed -/
def Debugger.seen (view : Memory → K → Int → V) (other : Int) (s : Debugger K) :
    Option HardwareBreakpointManager × V :=
  (s.hardwareBpHelpers.get? other, view s.world.mem s.world.os other)

theorem installBreakpoint_elsewhere (threadwise : Threadwise k view) {other : Int}
    (different : other ≠ tid) (bp : Ref) :
    Leaves (Debugger.seen view other) (installBreakpoint k tid bp) := by
  have pokes (address value : Nat) :
      Leaves (Debugger.seen view other) (pokeUser k tid address value) := by
    apply Keeps.modify
    intro s
    split
    · rename_i os written
      simp only [Same, Debugger.seen, threadwise.pokeuser_other s.world.mem written different]
    · rfl
  refine (getHelper_keeps _).bind fun helper => Keeps.get.bind fun s => ?_
  refine Keeps.ite (fun _ => Keeps.throw _) fun _ => ?_
  split
  · exact Keeps.throw _
  · refine (pokes _ _).bind fun _ => ?_
    split
    · refine (peekUser_keeps _ _).bind fun _ => (pokes _ _).bind fun _ => Keeps.modify fun s => ?_
      simp only [Same, Debugger.seen, Debugger.setDebugReg, Dict.get?_modify, if_neg different]
    · exact Keeps.throw _

/-- The breakpoints can be installed if and only if there is a free register for each, and each
one has a condition and a length that the registers know. -/
theorem installs_iff (reads : ReadsUserArea k) {helper : HardwareBreakpointManager} {bps : List Ref}
    (found : s.hardwareBpHelpers.get? tid = some helper)
    (counted : helper.breakpointCount = helper.held.length) :
    (∃ t, (bps.forM (installBreakpoint k tid)).run s = .ok () t) ↔
      helper.held.length + bps.length ≤ dbregsCount ∧ ∀ bp ∈ bps,
        (ctrlCondVal (s.objects bp).condition).isSome ∧
          (ctrlLenVal (s.objects bp).length).isSome := by
  induction bps generalizing s helper with
  | nil =>
      constructor
      · exact fun _ => ⟨held_length_le helper, fun bp member => absurd member List.not_mem_nil⟩
      · exact fun _ => ⟨s, rfl⟩
  | cons bp rest ih =>
      have step {t : Debugger K} (installed : (installBreakpoint k tid bp).run s = .ok () t) :
          Installable helper (s.objects bp) ∧
            ((∃ t', (rest.forM (installBreakpoint k tid)).run t = .ok () t') ↔
              helper.held.length + (rest.length + 1) ≤ dbregsCount ∧ ∀ bp ∈ rest,
                (ctrlCondVal (s.objects bp).condition).isSome ∧
                  (ctrlLenVal (s.objects bp).length).isSome) := by
        obtain ⟨os, before, f, there, ⟨installable, more, held⟩, rfl⟩ :=
          installBreakpoint_ok installed
        obtain rfl : helper = before := Option.some.inj (found.symm.trans there)
        have after : (s.withHelpers os (s.hardwareBpHelpers.modify tid f)).hardwareBpHelpers.get?
            tid = some (f helper) := by
          simp only [Debugger.withHelpers, Dict.get?_modify, if_true, there, Option.map_some]
        have length : (f helper).held.length = helper.held.length + 1 := held.length_eq
        refine ⟨installable, ?_⟩
        rw [ih after (by rw [more, counted, length]), length]
        have sum : helper.held.length + 1 + rest.length =
            helper.held.length + (rest.length + 1) := by
          omega
        rw [sum]
        rfl
      constructor
      · rintro ⟨t, returned⟩
        obtain ⟨_, r, first, later⟩ := ok_of_bind returned
        obtain ⟨installable, rest_iff⟩ := step first
        obtain ⟨count, settings⟩ := rest_iff.mp ⟨t, later⟩
        exact ⟨count, List.forall_mem_cons.mpr
          ⟨⟨installable.condition, installable.length⟩, settings⟩⟩
      · rintro ⟨count, settings⟩
        obtain ⟨⟨condition, length⟩, others⟩ := List.forall_mem_cons.mp settings
        rw [List.length_cons] at count
        have room : helper.held.length < dbregsCount := by omega
        obtain ⟨r, first⟩ := installBreakpoint_returns reads found
          ⟨by rw [counted]; exact room, room, condition, length⟩
        obtain ⟨t, later⟩ := (step first).2.mpr ⟨count, others⟩
        refine ⟨t, ?_⟩
        change (installBreakpoint k tid bp >>= fun _ =>
          rest.forM (installBreakpoint k tid)).run s = _
        rw [EStateM.run_bind, first]
        exact later

/-- What is in debug registers then is what has been there, or has been installed. -/
theorem installs_hittable {bps : List Ref} (known : ∀ bp ∈ bps, bp ∈ s.hittable)
    (returned : (bps.forM (installBreakpoint k tid)).run s = .ok () t) :
    t.hittable ⊆ s.hittable := by
  refine (forM_ok (P := fun rest t => (∀ bp ∈ rest, bp ∈ s.hittable) ∧ t.hittable ⊆ s.hittable)
    ?_ ⟨known, List.Subset.refl _⟩ returned).2
  rintro bp rest r r' ⟨known, before⟩ installed
  obtain ⟨here, later⟩ := List.forall_mem_cons.mp known
  refine ⟨later, fun other member => ?_⟩
  obtain ⟨os, helper, f, there, ⟨-, -, held⟩, rfl⟩ := installBreakpoint_ok installed
  rcases List.mem_append.mp member with listed | installed
  · exact before (List.mem_append_left _ listed)
  · obtain ⟨changed, found, holds⟩ := List.mem_flatMap.mp installed
    obtain ⟨owner, found⟩ := Dict.mem_values.mp found
    simp only [Debugger.withHelpers, Dict.get?_modify] at found
    split_ifs at found with own
    · obtain rfl : f helper = changed := by simpa [there] using found
      rcases List.mem_cons.mp (held.subset holds) with rfl | old
      · exact here
      · exact before (mem_hittable_of_held there old)
    · exact before (mem_hittable_of_held found holds)

/-- The breakpoints are installed in the debug registers of the new thread. -/
theorem installs_contributed (threadwise : Threadwise k view) (sound : s.Sound)
    (callbackless : s.Callbackless) {bps : List Ref} (known : ∀ bp ∈ bps, bp ∈ s.hittable)
    (returned : (bps.forM (installBreakpoint k tid)).run s = .ok () t) :
    Contributed view [tid] [] s t := by
  have hittable := installs_hittable known returned
  have managers : Keeps OnlyManagers (bps.forM (installBreakpoint k tid)) :=
    Keeps.forM fun bp _ => installBreakpoint_onlyManagers tid bp
  obtain ⟨os, helpers, rfl⟩ := managers.of_ok returned
  refine ⟨rfl, ⟨rfl, fun _ => rfl⟩, rfl, fun other outside => ?_,
    ⟨sound.files.of_owners (fun _ member => member) rfl, sound.catchable⟩,
    callbackless.of_breakpoints ⟨rfl, fun _ => rfl⟩ hittable rfl rfl⟩
  have different : other ≠ tid := fun same => outside (List.mem_singleton.mpr same)
  have elsewhere : Leaves (Debugger.seen view other) (bps.forM (installBreakpoint k tid)) :=
    Keeps.forM fun bp _ => installBreakpoint_elsewhere threadwise different bp
  have same : Debugger.seen view other (s.withHelpers os helpers) = Debugger.seen view other s :=
    elsewhere.of_ok returned
  obtain ⟨helper, kernel⟩ := Prod.ext_iff.mp same
  constructor
  · rw [Debugger.part, Debugger.part]
    exact congrArg (fun manager => (_, _, manager)) helper
  · exact fun _ _ => rfl
  · exact kernel

end Installing

/-! ### The node and the context -/

section Registering

/-- A register file that a node or a context has is the same after the registration. -/
theorem withThread_files (sound : s.Sound) {owner : Int × Ptr} (member : owner ∈ s.owners) :
    (s.withThread k tid).globalState.files owner.2 = s.globalState.files owner.2 := by
  change (registerThread k s.globalState s.world tid).2.files owner.2 = _
  rcases registerThread_cases k s.globalState s.world tid with ⟨-, same⟩ | ⟨-, -, -, kept⟩
  · rw [same]
  · exact kept owner.2 (Nat.ne_of_lt (sound.files.allocated owner member))

theorem withThread_undisturbed (sound : s.Sound) {other : Int} (different : tid ≠ other) :
    Undisturbed view other s (s.withThread k tid) := by
  refine ⟨?_, fun regs owned => withThread_files sound owned, rfl⟩
  have nodes : (nodeIds (s.withThread k tid).globalState).filter (·.1 = other) =
      (nodeIds s.globalState).filter (·.1 = other) := by
    change (nodeIds (registerThread k s.globalState s.world tid).2).filter (·.1 = other) = _
    rcases registerThread_cases k s.globalState s.world tid with ⟨-, same⟩ | ⟨-, listed, -⟩
    · rw [same]
    · rw [listed, List.filter_cons_of_neg (by simpa using different)]
  have contexts : (s.withThread k tid).identities.filter (·.1 = other) =
      s.identities.filter (·.1 = other) := by
    rw [Debugger.withThread, identities_insertNewThread, List.filter_append,
      List.filter_cons_of_neg (by simpa using different), List.filter_nil, List.append_nil]
    rfl
  have helper : (s.withThread k tid).hardwareBpHelpers.get? other =
      s.hardwareBpHelpers.get? other := by
    rw [Debugger.withThread, Debugger.insertNewThread]
    dsimp only
    rw [Dict.get?_set, if_neg different.symm]
    rfl
  rw [Debugger.part, Debugger.part, contexts, helper, nodes]

/-- The new context is the last of the thread. -/
theorem withThread_ips (sound : s.Sound) : (s.withThread k tid).ips tid =
    s.ips tid ++ [instructionPointer ((registerThread k s.globalState s.world tid).2.files
      (registerThread k s.globalState s.world tid).1)] := by
  have contexts : (s.withThread k tid).identities = s.identities ++
      [(tid, false, (registerThread k s.globalState s.world tid).1)] :=
    identities_insertNewThread _
  rw [ips_eq, ips_eq, contexts, List.map_append, List.filter_append, List.map_append]
  refine congrArg₂ (· ++ ·) (List.map_congr_left fun owner member => ?_) ?_
  · have owned : owner ∈ s.owners := List.mem_append_right _ (List.mem_of_mem_filter member)
    exact congrArg instructionPointer (withThread_files sound owned)
  · simp only [List.map_cons, List.map_nil, decide_true, List.filter_cons_of_pos,
      List.filter_nil]
    rfl

/-- The new manager holds no breakpoint. -/
theorem withThread_hittable : (s.withThread k tid).hittable ⊆ s.hittable := by
  intro bp member
  rcases List.mem_append.mp member with listed | installed
  · exact List.mem_append_left _ listed
  · obtain ⟨helper, there, held⟩ := List.mem_flatMap.mp installed
    obtain ⟨owner, found⟩ := Dict.mem_values.mp there
    rw [Debugger.withThread, Debugger.insertNewThread] at found
    dsimp only at found
    rw [Dict.get?_set] at found
    split_ifs at found with own
    · obtain rfl : {} = helper := Option.some.inj found
      cases held
    · exact mem_hittable_of_held found held

theorem withThread_contributed (sound : s.Sound) (callbackless : s.Callbackless) :
    Contributed view [tid] [.place tid (s.ips tid ++ [instructionPointer
      ((registerThread k s.globalState s.world tid).2.files
        (registerThread k s.globalState s.world tid).1)])] s (s.withThread k tid) := by
  have others : ∀ other ∉ [tid], Undisturbed view other s (s.withThread k tid) :=
    fun other outside => withThread_undisturbed sound
      fun same => outside (List.mem_singleton.mpr same.symm)
  constructor
  · have ips : (s.withThread k tid).ips = Function.update s.ips tid (s.ips tid ++
        [instructionPointer ((registerThread k s.globalState s.world tid).2.files
          (registerThread k s.globalState s.world tid).1)]) := by
      funext other
      by_cases own : other = tid
      · rw [own, Function.update_self, withThread_ips sound]
      · rw [Function.update_of_ne own]
        exact (others other (by simpa using own)).ips
    simp only [Tally.addAll_cons, Tally.addAll_nil, Tally.add]
    rw [Debugger.tally, ips]
    rfl
  · exact ⟨rfl, fun _ => rfl⟩
  · rfl
  · exact others
  · exact ⟨sound.files.withThread, sound.catchable⟩
  · exact callbackless.of_breakpoints ⟨rfl, fun _ => rfl⟩ withThread_hittable rfl rfl

end Registering

/-! ### The event -/

section Events

variable {results : List ThreadStatus} {world : World K}

/-- The state in which the new thread has stopped -/
def Debugger.withWorld (s : Debugger K) (world : World K) : Debugger K := { s with world }

theorem awaited_cases (ready : s.awaited k results tid = some world) :
    world = s.world ∨
      let waited := k.waitpid s.world.mem s.world.os (.thread tid) false
      waited.1.isSome ∧ world.mem = waited.2.1 ∧ world.os = waited.2.2 := by
  unfold Debugger.awaited World.waitpid at ready
  split at ready
  · exact .inl (Option.some.inj ready).symm
  · right
    rcases waited : k.waitpid s.world.mem s.world.os (.thread tid) false with
      ⟨_ | status, mem, os⟩ <;> rw [waited] at ready
    · cases ready
    · obtain rfl := Option.some.inj ready
      exact ⟨rfl, rfl, rfl⟩

theorem awaitNewThread_run (ready : s.awaited k results tid = some world) :
    (awaitNewThread k tid results).run s = .ok () (s.withWorld world) := by
  unfold Debugger.awaited at ready
  unfold awaitNewThread
  split at ready
  · rename_i announced
    rw [if_pos announced, ← Option.some.inj ready]
    rfl
  · rename_i silent
    rw [if_neg silent, osWaitpid, EStateM.run_bind, callLib_run]
    dsimp only
    rcases waited : s.world.waitpid k .handleClone (.thread tid) false with ⟨_ | status, after⟩
    · rw [waited] at ready
      cases ready
    · rw [waited] at ready
      obtain rfl : after = world := Option.some.inj ready
      rfl

theorem awaited_contributed (threadwise : Threadwise k view) (sound : s.Sound)
    (callbackless : s.Callbackless) (ready : s.awaited k results tid = some world) :
    Contributed view [tid] [] s (s.withWorld world) := by
  refine ⟨rfl, ⟨rfl, fun _ => rfl⟩, rfl, fun other outside => ⟨rfl, fun _ _ => rfl, ?_⟩,
    ⟨sound.files.of_owners (fun _ member => member) rfl, sound.catchable⟩,
    ⟨callbackless.breakpoints, callbackless.handlers, callbackless.catchers⟩⟩
  have different : other ≠ tid := fun same => outside (List.mem_singleton.mpr same)
  rcases awaited_cases ready with same | ⟨-, memory, kernel⟩
  · rw [Debugger.withWorld, same]
  · rw [Debugger.withWorld, memory, kernel]
    exact threadwise.waitpid_other s.world.mem s.world.os different

theorem registerNewThread_run (s : Debugger K) (tid : Int) : (registerNewThread k tid).run s =
    (s.hardwareBreakpoints.forM (installBreakpoint k tid)).run (s.withThread k tid) := rfl

variable (sound : s.Sound) (callbackless : s.Callbackless)
  (ready : s.awaited k results tid = some world)

include ready

theorem handleClone_run : (handleClone k tid results).run s =
    (s.hardwareBreakpoints.forM (installBreakpoint k tid)).run
      ((s.withWorld world).withThread k tid) := by
  rw [handleClone, EStateM.run_bind, awaitNewThread_run ready]
  exact registerNewThread_run (s.withWorld world) tid

/-- The new thread is registered if and only if its debug registers take the hardware
breakpoints. -/
theorem handleClone_returns_iff (reads : ReadsUserArea k) :
    (∃ t, (handleClone k tid results).run s = .ok () t) ↔ s.HardwareFits := by
  have fresh : ((s.withWorld world).withThread k tid).hardwareBpHelpers.get? tid = some {} := by
    rw [Debugger.withThread, Debugger.insertNewThread, Dict.get?_set, if_pos rfl]
  rw [handleClone_run ready, installs_iff reads fresh rfl]
  have empty : (({} : HardwareBreakpointManager).held).length = 0 := rfl
  rw [empty, Nat.zero_add]
  exact ⟨fun fits => ⟨fits.1, fits.2⟩, fun fits => ⟨fits.count, fits.settings⟩⟩

include sound callbackless in
theorem handleClone_contributed (threadwise : Threadwise k view)
    (returned : (handleClone k tid results).run s = .ok () t) :
    Contributed view [tid] [.place tid (s.ips tid ++ [s.firstIp k results tid])] s t := by
  rw [handleClone_run ready] at returned
  have first : Contributed view [tid] [] s (s.withWorld world) :=
    awaited_contributed threadwise sound callbackless ready
  have second : Contributed view [tid] _ (s.withWorld world)
      ((s.withWorld world).withThread k tid) :=
    withThread_contributed first.sound first.callbackless
  have known : ∀ bp ∈ s.hardwareBreakpoints,
      bp ∈ ((s.withWorld world).withThread k tid).hittable :=
    fun bp member => List.mem_append_left _ (List.mem_of_mem_filter member)
  have third : Contributed view [tid] [] _ t :=
    installs_contributed threadwise second.sound second.callbackless known returned
  have firstIp : s.firstIp k results tid = instructionPointer
      ((registerThread k s.globalState world tid).2.files
        (registerThread k s.globalState world tid).1) := by
    rw [Debugger.firstIp, ready]
  rw [firstIp]
  exact (first.trans second).trans third

end Events

end Libdebug.Ptrace
