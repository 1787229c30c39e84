import Libdebug.Ptrace.Tally
import Libdebug.Ptrace.BreakpointHits
import Libdebug.Ptrace.CaughtSignals
import Libdebug.Ptrace.RegisterFiles

/-!
How the handling of one status changes the state, where no function of the user is called: it adds
its contributions to the tally, and leaves alone what belongs to the threads that it does not
concern.
-/

namespace Libdebug.Ptrace

open Libdebug.Foundation Libdebug.Cffi

variable {K V : Type}

/-! ### What belongs to one thread -/

/-- A request on a thread goes by what the kernel keeps of that thread, and changes what it keeps
of no other one. -/
structure Threadwise (k : Kernel K) (view : Memory → K → Int → V) : Prop where
  getregs : ∀ {mem os mem' os' tid}, view mem' os' tid = view mem os tid →
    k.getregs os' tid = k.getregs os tid
  peekuser : ∀ {mem os mem' os' tid}, view mem' os' tid = view mem os tid →
    ∀ address, k.peekuser os' tid address = k.peekuser os tid address
  geteventmsg : ∀ {mem os mem' os' tid}, view mem' os' tid = view mem os tid →
    k.geteventmsg os' tid = k.geteventmsg os tid
  waitpid : ∀ {mem os mem' os' tid}, view mem' os' tid = view mem os tid →
    let before := k.waitpid mem os (.thread tid) false
    let after := k.waitpid mem' os' (.thread tid) false
    after.1 = before.1 ∧ view after.2.1 after.2.2 tid = view before.2.1 before.2.2 tid
  waitpid_other : ∀ mem os {tid other}, other ≠ tid →
    let after := k.waitpid mem os (.thread tid) false
    view after.2.1 after.2.2 other = view mem os other
  pokeuser_other : ∀ mem {os os' tid address value other},
    k.pokeuser os tid address value = some os' → other ≠ tid →
      view mem os' other = view mem os other

namespace Debugger

/-- What the registries have of one thread -/
def part (s : Debugger K) (tid : Int) :
    List (Int × Ptr) × List (Int × Bool × Ptr) × Option HardwareBreakpointManager :=
  ((nodeIds s.globalState).filter (·.1 = tid), s.identities.filter (·.1 = tid),
    s.hardwareBpHelpers.get? tid)

/-- No two threads have one register file, and every signal that is caught may be. -/
structure Sound (s : Debugger K) : Prop where
  files : s.FilesApart
  catchable : s.Catchable

/-- The breakpoints that a trap can be put down to: those of `breakpoints` and those that are in
debug registers -/
def hittable (s : Debugger K) : List Ref :=
  s.breakpoints.values ++ s.hardwareBpHelpers.values.flatMap (·.held)

/-- No breakpoint, syscall handler or signal catcher has a callback. -/
structure Callbackless (s : Debugger K) : Prop where
  breakpoints : ∀ bp ∈ s.hittable, (s.objects bp).callback = none
  handlers : ∀ number handler, s.handledSyscalls.get? number = some handler →
    handler.Callbackless
  catchers : ∀ number catcher, s.caughtSignals.get? number = some catcher →
    catcher.callback = none

end Debugger

variable {view : Memory → K → Int → V} {r s t : Debugger K} {tid : Int} {file : Ptr}

/-- Nothing has happened to what belongs to the thread. -/
structure Undisturbed (view : Memory → K → Int → V) (tid : Int) (s t : Debugger K) : Prop where
  part : t.part tid = s.part tid
  files : ∀ file, (tid, file) ∈ s.owners → t.globalState.files file = s.globalState.files file
  kernel : view t.world.mem t.world.os tid = view s.world.mem s.world.os tid

theorem mem_owners : (tid, file) ∈ s.owners ↔
    (tid, file) ∈ (s.part tid).1 ∨ ∃ dead, (tid, dead, file) ∈ (s.part tid).2.1 := by
  simp only [Debugger.owners, Debugger.part, List.mem_append, List.mem_map, List.mem_filter,
    decide_true, and_true, Prod.mk.injEq, Prod.exists]
  refine or_congr_right ⟨?_, ?_⟩
  · rintro ⟨id, dead, regs, member, rfl, rfl⟩
    exact ⟨dead, member⟩
  · rintro ⟨dead, member⟩
    exact ⟨tid, dead, file, member, rfl, rfl⟩

theorem liveFile_eq_part (s : Debugger K) (tid : Int) :
    s.liveFile tid = ((s.part tid).2.1.find? (!·.2.1)).map (·.2.2) := by
  rw [Debugger.liveFile, Debugger.getThreadById, ← List.find?_eq_bind_findIdx?_getElem?,
    Debugger.part, List.find?_filter, Debugger.identities, List.find?_map, Option.map_map]
  simp only [Function.comp_def, Bool.decide_and, Bool.decide_eq_true]

theorem mem_owners_of_live (live : s.liveFile tid = some file) : (tid, file) ∈ s.owners := by
  rw [liveFile_eq_part] at live
  obtain ⟨⟨id, dead, regs⟩, found, rfl⟩ := Option.map_eq_some_iff.mp live
  have member := List.mem_of_find?_eq_some found
  have own : id = tid := by simpa using (List.mem_filter.mp member).2
  exact mem_owners.mpr (.inr ⟨dead, own ▸ member⟩)

namespace Undisturbed

theorem refl (s : Debugger K) : Undisturbed view tid s s := ⟨rfl, fun _ _ => rfl, rfl⟩

theorem owners (undisturbed : Undisturbed view tid s t) :
    (tid, file) ∈ t.owners ↔ (tid, file) ∈ s.owners := by
  rw [mem_owners, mem_owners, undisturbed.part]

theorem trans (first : Undisturbed view tid r s) (second : Undisturbed view tid s t) :
    Undisturbed view tid r t where
  part := second.part.trans first.part
  files file member :=
    (second.files file (first.owners.mpr member)).trans (first.files file member)
  kernel := second.kernel.trans first.kernel

theorem liveFile (undisturbed : Undisturbed view tid s t) : t.liveFile tid = s.liveFile tid := by
  rw [liveFile_eq_part, liveFile_eq_part, undisturbed.part]

theorem helper (undisturbed : Undisturbed view tid s t) :
    t.hardwareBpHelpers.get? tid = s.hardwareBpHelpers.get? tid :=
  congrArg (·.2.2) undisturbed.part

/-- The register file of the thread holds what it held. -/
theorem registers (undisturbed : Undisturbed view tid s t) (live : s.liveFile tid = some file) :
    t.globalState.files file = s.globalState.files file :=
  undisturbed.files file (mem_owners_of_live live)

theorem ips (undisturbed : Undisturbed view tid s t) : t.ips tid = s.ips tid := by
  have contexts : t.identities.filter (·.1 = tid) = s.identities.filter (·.1 = tid) :=
    congrArg (·.2.1) undisturbed.part
  rw [Debugger.ips, Debugger.ips, contexts]
  refine List.map_congr_left fun context member => ?_
  obtain ⟨listed, own⟩ := List.mem_filter.mp member
  have owned : (tid, context.2.2) ∈ s.owners := by
    refine List.mem_append_right _ (List.mem_map.mpr ⟨context, listed, ?_⟩)
    rw [of_decide_eq_true own]
  rw [undisturbed.files _ owned]

end Undisturbed

/-! ### Steps that contribute -/

/-- What a breakpoint has besides its history -/
def Breakpoint.settings (bp : Breakpoint) : Breakpoint :=
  { bp with hitCount := 0, linkedThreadIds := [] }

/-- The two states have the same breakpoints, apart from their histories. -/
structure SameSettings (s t : Debugger K) : Prop where
  table : t.breakpoints = s.breakpoints
  settings : ∀ bp, (t.objects bp).settings = (s.objects bp).settings

namespace SameSettings

theorem refl (s : Debugger K) : SameSettings s s := ⟨rfl, fun _ => rfl⟩

theorem symm (same : SameSettings s t) : SameSettings t s :=
  ⟨same.table.symm, fun bp => (same.settings bp).symm⟩

theorem trans (first : SameSettings r s) (second : SameSettings s t) : SameSettings r t :=
  ⟨second.table.trans first.table, fun bp => (second.settings bp).trans (first.settings bp)⟩

/-- A field that is no part of the history is the same. -/
theorem field (same : SameSettings s t) {α : Type} {f : Breakpoint → α}
    (kept : ∀ bp : Breakpoint, f bp.settings = f bp) (bp : Ref) :
    f (t.objects bp) = f (s.objects bp) := by
  rw [← kept, same.settings, kept]

theorem activeBreakpoint (same : SameSettings s t) :
    t.activeBreakpoint = s.activeBreakpoint := by
  funext address
  have active (bp : Ref) :
      ((t.objects bp).enabled && !(t.objects bp).disabledForStep) =
        ((s.objects bp).enabled && !(s.objects bp).disabledForStep) :=
    same.field (f := fun bp => bp.enabled && !bp.disabledForStep) (fun _ => rfl) bp
  simp only [Debugger.activeBreakpoint, same.table, active]

theorem hardwareFits (same : SameSettings s t) (fits : s.HardwareFits) : t.HardwareFits := by
  have hardware (bp : Ref) : (t.objects bp).hardware = (s.objects bp).hardware :=
    same.field (f := (·.hardware)) (fun _ => rfl) bp
  have condition (bp : Ref) : (t.objects bp).condition = (s.objects bp).condition :=
    same.field (f := (·.condition)) (fun _ => rfl) bp
  have length (bp : Ref) : (t.objects bp).length = (s.objects bp).length :=
    same.field (f := (·.length)) (fun _ => rfl) bp
  have listed : t.hardwareBreakpoints = s.hardwareBreakpoints := by
    simp only [Debugger.hardwareBreakpoints, same.table, hardware]
  constructor
  · rw [listed]
    exact fits.count
  · simp only [listed, condition, length]
    exact fits.settings

end SameSettings

/-- From `s` to `t` the contributions were added to the tally, and threads other than `mine` were
left alone. -/
structure Contributed (view : Memory → K → Int → V) (mine : List Int)
    (contributions : List Contribution) (s t : Debugger K) : Prop where
  tally : t.tally = s.tally.addAll contributions
  breakpoints : SameSettings s t
  startup : t.resumeContext.isStartup = s.resumeContext.isStartup
  others : ∀ tid ∉ mine, Undisturbed view tid s t
  sound : t.Sound
  callbackless : t.Callbackless

variable {mine wider : List Int} {contributions more : List Contribution}

namespace Contributed

theorem refl (sound : s.Sound) (callbackless : s.Callbackless) :
    Contributed view mine [] s s :=
  ⟨rfl, .refl s, rfl, fun _ _ => .refl s, sound, callbackless⟩

theorem trans (first : Contributed view mine contributions r s)
    (second : Contributed view mine more s t) :
    Contributed view mine (contributions ++ more) r t where
  tally := by rw [second.tally, first.tally, Tally.addAll_append]
  breakpoints := first.breakpoints.trans second.breakpoints
  startup := second.startup.trans first.startup
  others tid outside := (first.others tid outside).trans (second.others tid outside)
  sound := second.sound
  callbackless := second.callbackless

theorem mono (contributed : Contributed view mine contributions s t) (sub : mine ⊆ wider) :
    Contributed view wider contributions s t :=
  { contributed with
    others := fun tid outside => contributed.others tid fun member => outside (sub member) }

end Contributed

/-- The two states agree on what belongs to any thread. -/
structure SamePrivate (s t : Debugger K) : Prop where
  library : t.globalState = s.globalState
  contexts : t.identities = s.identities
  helpers : t.hardwareBpHelpers = s.hardwareBpHelpers
  memory : t.world.mem = s.world.mem
  kernel : t.world.os = s.world.os

namespace SamePrivate

theorem undisturbed (same : SamePrivate s t) (tid : Int) : Undisturbed view tid s t := by
  constructor
  · rw [Debugger.part, Debugger.part, same.library, same.contexts, same.helpers]
  · intro file _
    rw [same.library]
  · rw [same.memory, same.kernel]

theorem owners (same : SamePrivate s t) : t.owners = s.owners := by
  rw [Debugger.owners, Debugger.owners, same.library, same.contexts]

theorem sound (same : SamePrivate s t) (sound : s.Sound)
    (caught : t.caughtSignals.keys = s.caughtSignals.keys) : t.Sound where
  files := sound.files.of_owners (fun _ member => same.owners ▸ member) (by rw [same.library])
  catchable := by
    rw [Debugger.Catchable, caught]
    exact sound.catchable

theorem ips (same : SamePrivate s t) : t.ips = s.ips := by
  funext tid
  have undisturbed : Undisturbed (fun _ _ _ => ()) tid s t := same.undisturbed tid
  exact undisturbed.ips

end SamePrivate

section Shared

variable (sound : s.Sound) (callbackless : s.Callbackless)

include sound callbackless

/-- A step on the fields of the resume context only -/
theorem contributed_of_flags (same : SamePrivate s t) (breakpoints : t.breakpoints = s.breakpoints)
    (objects : t.objects = s.objects) (handlers : t.handledSyscalls = s.handledSyscalls)
    (catchers : t.caughtSignals = s.caughtSignals)
    (startup : t.resumeContext.isStartup = s.resumeContext.isStartup)
    (tally : t.tally = s.tally.addAll contributions) :
    Contributed view [] contributions s t where
  tally := tally
  breakpoints := ⟨breakpoints, fun bp => by rw [objects]⟩
  startup := startup
  others tid _ := same.undisturbed tid
  sound := same.sound sound (by rw [catchers])
  callbackless := by
    constructor
    · rw [objects, Debugger.hittable, breakpoints, same.helpers]
      exact callbackless.breakpoints
    · rw [handlers]
      exact callbackless.handlers
    · rw [catchers]
      exact callbackless.catchers

theorem setForwardSignal_contributed (forwardSignal : Bool) :
    Contributed view [] [] s (s.setForwardSignal forwardSignal) :=
  contributed_of_flags sound callbackless ⟨rfl, rfl, rfl, rfl, rfl⟩ rfl rfl rfl rfl rfl rfl

theorem setResume_contributed : Contributed view [] [.stop] s (s.setResume false) := by
  have tally : (s.setResume false).tally = s.tally.addAll [.stop] := by
    simp only [Tally.addAll_cons, Tally.addAll_nil, Tally.add, Tally.stopIf, Bool.not_true,
      Bool.and_false]
    rfl
  exact contributed_of_flags sound callbackless ⟨rfl, rfl, rfl, rfl, rfl⟩ rfl rfl rfl rfl rfl tally

/-- An interrupt that was requested is taken by the first `SIGSTOP`. -/
theorem interrupt_contributed (forced : s.resumeContext.forceInterrupt = true) :
    Contributed view [] [.interrupt] s
      { s with
        resumeContext := { s.resumeContext with resume := false, forceInterrupt := false }
        forwardSignal := false } := by
  refine contributed_of_flags sound callbackless ⟨rfl, rfl, rfl, rfl, rfl⟩ rfl rfl rfl rfl rfl ?_
  have taken : s.tally.forceInterrupt = true := forced
  simp only [Tally.addAll_cons, Tally.addAll_nil, Tally.add, Tally.stopIf, taken, Bool.not_true,
    Bool.and_false]
  rfl

theorem stop_contributed (unforced : s.resumeContext.forceInterrupt = false) :
    Contributed view [] [.interrupt] s s := by
  refine contributed_of_flags sound callbackless ⟨rfl, rfl, rfl, rfl, rfl⟩ rfl rfl rfl rfl rfl ?_
  have free : s.tally.forceInterrupt = false := unforced
  simp only [Tally.addAll_cons, Tally.addAll_nil, Tally.add, Tally.stopIf, free, Bool.not_false,
    Bool.and_true]
  rw [← free]

variable (view) in
theorem finishStep_contributed : ∃ t, (finishStep : Py K Unit).run s = .ok () t ∧
    SamePrivate s t ∧ Contributed view [] [.endStep] s t := by
  refine ⟨_, rfl, ?_⟩
  cases stepping : s.tally.isAStep with
  | true =>
      have here : s.resumeContext.isAStep = true := stepping
      dsimp only
      rw [if_pos here]
      refine ⟨⟨rfl, rfl, rfl, rfl, rfl⟩, ?_⟩
      refine contributed_of_flags sound callbackless ⟨rfl, rfl, rfl, rfl, rfl⟩ rfl rfl rfl rfl rfl
        ?_
      simp only [Tally.addAll_cons, Tally.addAll_nil, Tally.add, Tally.stopIf, stepping,
        Bool.not_true, Bool.and_false]
      rfl
  | false =>
      have here : ¬ s.resumeContext.isAStep = true := Bool.eq_false_iff.mp stepping
      dsimp only
      rw [if_neg here]
      refine ⟨⟨rfl, rfl, rfl, rfl, rfl⟩, ?_⟩
      refine contributed_of_flags sound callbackless ⟨rfl, rfl, rfl, rfl, rfl⟩ rfl rfl rfl rfl rfl
        ?_
      simp only [Tally.addAll_cons, Tally.addAll_nil, Tally.add, Tally.stopIf, stepping,
        Bool.not_false, Bool.and_true]
      rw [← stepping]

end Shared

/-! ### Traps -/

theorem sameSettings_updateBreakpoint (s : Debugger K) (bp : Ref) {f : Breakpoint → Breakpoint}
    (same : ∀ b, (f b).settings = b.settings) : SameSettings s (s.updateBreakpoint bp f) := by
  refine ⟨rfl, fun other => ?_⟩
  by_cases here : other = bp
  · subst here
    simp only [Debugger.updateBreakpoint, Function.update_self, same]
  · simp only [Debugger.updateBreakpoint, Function.update_of_ne here]

theorem Debugger.Callbackless.of_breakpoints (callbackless : s.Callbackless)
    (same : SameSettings s t) (hittable : t.hittable ⊆ s.hittable)
    (handlers : t.handledSyscalls = s.handledSyscalls)
    (catchers : t.caughtSignals = s.caughtSignals) : t.Callbackless where
  breakpoints bp member := by
    rw [same.field (f := (·.callback)) fun _ => rfl]
    exact callbackless.breakpoints bp (hittable member)
  handlers := by
    rw [handlers]
    exact callbackless.handlers
  catchers := by
    rw [catchers]
    exact callbackless.catchers

section Traps

variable {k : Kernel K} {u : UserCode K}
variable (sound : s.Sound) (callbackless : s.Callbackless)

include sound callbackless

variable (view tid u) in
/-- A hit is counted, and the process stops. -/
theorem creditHit_contributed {bp : Ref} (hittable : bp ∈ s.hittable) :
    ∃ t, (creditHit u tid bp).run s = .ok () t ∧
    SamePrivate s t ∧ Contributed view [] [.hit bp] s t := by
  set counted := (s.setForwardSignal false).updateBreakpoint bp
    fun b => { b with hitCount := b.hitCount + 1 } with count
  have updated : SameSettings (s.setForwardSignal false) counted :=
    sameSettings_updateBreakpoint (s.setForwardSignal false) bp
      (f := fun b => { b with hitCount := b.hitCount + 1 }) fun _ => rfl
  have settings : SameSettings s (counted.setResume false) := ⟨updated.table, updated.settings⟩
  have silent : (counted.objects bp).callback = none :=
    (callbackless.of_breakpoints settings (List.Subset.refl _) rfl rfl).breakpoints bp hittable
  have same : SamePrivate s (counted.setResume false) := ⟨rfl, rfl, rfl, rfl, rfl⟩
  refine ⟨counted.setResume false, ?_, same, ?_⟩
  · simp only [creditHit, EStateM.run_bind, EStateM.run_modify, EStateM.run_get, ← count, silent]
  constructor
  · have hits : (counted.setResume false).tally.hits =
        Function.update s.tally.hits bp (s.tally.hits bp + 1) := by
      funext other
      by_cases here : other = bp
      · subst here
        simp [Debugger.tally, count, Debugger.updateBreakpoint, Debugger.setForwardSignal,
          Debugger.setResume]
      · simp [Debugger.tally, count, Debugger.updateBreakpoint, Debugger.setForwardSignal,
          Debugger.setResume, here]
    simp only [Tally.addAll_cons, Tally.addAll_nil, Tally.add, Tally.stopIf, Bool.not_true,
      Bool.and_false, ← hits]
    rfl
  · exact settings
  · rfl
  · exact fun tid _ => same.undisturbed tid
  · exact same.sound sound rfl
  · exact callbackless.of_breakpoints settings (List.Subset.refl _) rfl rfl

omit callbackless in
/-- A register file belongs to one thread only. -/
theorem writeReg_undisturbed (live : s.liveFile tid = some file) {other : Int}
    (different : other ≠ tid) (reg : Reg) (value : Nat) :
    Undisturbed view other s (s.writeReg file reg value) where
  part := rfl
  files otherFile owned := by
    have apart : otherFile ≠ file := by
      rintro rfl
      exact different (sound.files.separate _ owned _ (mem_owners_of_live live) rfl)
    exact Function.update_of_ne apart _ _
  kernel := rfl

/-- The instruction pointer is set back, and the breakpoint linked to the thread. -/
theorem setBack_contributed (live : s.liveFile tid = some file) (ip : Nat) (bp : Ref) :
    Contributed view [tid] [.place tid ((s.setBack file ip).ips tid)] s
      ((s.setBack file ip).updateBreakpoint bp
        fun b => { b with linkedThreadIds := b.linkedThreadIds ++ [tid] }) := by
  set linked := (s.setBack file ip).updateBreakpoint bp
    fun b => { b with linkedThreadIds := b.linkedThreadIds ++ [tid] } with link
  have updated : SameSettings (s.setBack file ip) linked :=
    sameSettings_updateBreakpoint (s.setBack file ip) bp
      (f := fun b => { b with linkedThreadIds := b.linkedThreadIds ++ [tid] }) fun _ => rfl
  have settings : SameSettings s linked := ⟨updated.table, updated.settings⟩
  have same : SamePrivate (s.setBack file ip) linked := ⟨rfl, rfl, rfl, rfl, rfl⟩
  have others : ∀ other ∉ [tid], Undisturbed view other s linked := by
    intro other outside
    have different : other ≠ tid := fun same => outside (List.mem_singleton.mpr same)
    exact (writeReg_undisturbed sound live different _ _).trans (same.undisturbed other)
  constructor
  · have hits : linked.tally.hits = s.tally.hits := by
      funext other
      by_cases here : other = bp
      · subst here
        simp [Debugger.tally, link, Debugger.updateBreakpoint, Debugger.setBack,
          Debugger.writeReg]
      · simp [Debugger.tally, link, Debugger.updateBreakpoint, Debugger.setBack,
          Debugger.writeReg, here]
    have ips : linked.tally.ips =
        Function.update s.tally.ips tid ((s.setBack file ip).ips tid) := by
      funext other
      by_cases here : other = tid
      · rw [here, Function.update_self]
        rfl
      · rw [Function.update_of_ne here]
        exact (others other (by simpa using here)).ips
    simp only [Tally.addAll_cons, Tally.addAll_nil, Tally.add, ← ips, ← hits]
    rfl
  · exact settings
  · rfl
  · exact others
  · exact ⟨sound.files.of_owners (fun _ member => member) rfl, sound.catchable⟩
  · exact callbackless.of_breakpoints settings (List.Subset.refl _) rfl rfl

omit sound callbackless in
theorem isWatchpointHit_run (reads : ReadsUserArea k) {helper : HardwareBreakpointManager}
    (managed : s.hardwareBpHelpers.get? tid = some helper) :
    (isWatchpointHit k tid).run s = .ok (s.hitWatchpoint k tid) s := by
  obtain ⟨dr6, read⟩ := Option.isSome_iff_exists.mp (reads s.world.os tid dr6Offset)
  have peeked : (peekUser k tid dr6Offset).run s = .ok dr6 s := by
    simp only [peekUser, EStateM.run_bind, EStateM.run_get, read]
    rfl
  simp only [isWatchpointHit, EStateM.run_bind, run_getHelper managed, peeked, EStateM.run_get,
    Debugger.hitWatchpoint, managed, read, Option.getD_some, Option.bind_some]
  rcases (hitDebugReg dr6).bind helper.breakpointRegisters with _ | bp
  · rfl
  · simp only [Option.filter_some, EStateM.run_pure, ne_eq, decide_not]
    split <;> rename_i here <;> simp [here]

omit sound callbackless in
/-- A trap of a thread that is known is put down to a breakpoint first. -/
theorem handleBreakpoints_run (live : s.liveFile tid = some file) : ∃ thread,
    thread.registerFile = file ∧ (handleBreakpoints k u tid).run s =
      (findHit k tid thread (s.globalState.files file .rip) >>= fun hit =>
        match hit with
        | some bp => creditHit u tid bp
        | none => pure ()).run s := by
  obtain ⟨thread, context, -, rfl⟩ := liveFile_eq_some.mp live
  refine ⟨thread, rfl, ?_⟩
  rw [handleBreakpoints, EStateM.run_bind, EStateM.run_get]
  dsimp only
  rw [context]
  rfl

omit sound callbackless in
theorem findHit_elsewhere {thread : ThreadContext} {ip : Nat} (here : s.activeBreakpoint ip = none)
    (before : (beforeTrap ip).bind s.activeBreakpoint = none) :
    (findHit k tid thread ip).run s = (isWatchpointHit k tid).run s := by
  simp only [findHit, EStateM.run_bind, EStateM.run_get, here, before]

omit sound callbackless in
theorem mem_hittable_of_active {ip : Nat} {bp : Ref} (active : s.activeBreakpoint ip = some bp) :
    bp ∈ s.hittable :=
  List.mem_append_left _ (Dict.mem_values.mpr ⟨ip, (Option.filter_eq_some_iff.mp active).1⟩)

omit sound callbackless in
theorem mem_hittable_of_held {helper : HardwareBreakpointManager} {bp : Ref}
    (managed : s.hardwareBpHelpers.get? tid = some helper) (held : bp ∈ helper.held) :
    bp ∈ s.hittable :=
  List.mem_append_right _
    (List.mem_flatMap.mpr ⟨helper, Dict.mem_values.mpr ⟨tid, managed⟩, held⟩)

omit sound callbackless in
theorem mem_hittable_of_watchpoint {k : Kernel K} {bp : Ref}
    (hit : s.hitWatchpoint k tid = some bp) : bp ∈ s.hittable := by
  obtain ⟨found, -⟩ := Option.filter_eq_some_iff.mp hit
  obtain ⟨helper, managed, found⟩ := Option.bind_eq_some_iff.mp found
  obtain ⟨register, -, there⟩ := Option.bind_eq_some_iff.mp found
  exact mem_hittable_of_held managed
    (List.mem_filterMap.mpr ⟨register, register.mem_all, there⟩)

variable (view u) in
theorem handleBreakpoints_contributed (reads : ReadsUserArea k)
    (managed : ∀ file, s.liveFile tid = some file →
      s.trapBreakpoint (s.globalState.files file .rip) = none →
      (s.hardwareBpHelpers.get? tid).isSome) :
    ∃ t, (handleBreakpoints k u tid).run s = .ok () t ∧
      (t.identities = s.identities ∧ t.world.os = s.world.os) ∧
      Contributed view [tid] (s.trapContributions k tid) s t := by
  rcases live : s.liveFile tid with _ | file
  · have unknown : (s.getThreadById tid).bind (s.threads[·]?) = none :=
      Option.map_eq_none_iff.mp live
    have stopped : Contributed view [] [.stop] s ((s.setResume false).setForwardSignal false) := by
      have stop : Contributed view [] [.stop] s (s.setResume false) :=
        setResume_contributed sound callbackless
      exact stop.trans (setForwardSignal_contributed stop.sound stop.callbackless false)
    refine ⟨(s.setResume false).setForwardSignal false, ?_, ⟨rfl, rfl⟩, ?_⟩
    · rw [handleBreakpoints, EStateM.run_bind, EStateM.run_get]
      dsimp only
      rw [unknown]
      rfl
    · simp only [Debugger.trapContributions, live]
      exact stopped.mono (List.nil_subset _)
  · obtain ⟨thread, rfl, handled⟩ := handleBreakpoints_run (k := k) (u := u) live
    rw [handled]
    set ip := s.globalState.files thread.registerFile .rip with ip_eq
    simp only [Debugger.trapContributions, live, ← ip_eq]
    rcases here : s.activeBreakpoint ip with _ | bp
    · rcases before : (beforeTrap ip).bind s.activeBreakpoint with _ | bp
      · have elsewhere : s.trapBreakpoint ip = none := by
          rw [Debugger.trapBreakpoint, here, before]
          rfl
        obtain ⟨helper, there⟩ := Option.isSome_iff_exists.mp (managed _ live elsewhere)
        have found : (findHit k tid thread ip).run s = .ok (s.hitWatchpoint k tid) s := by
          rw [findHit_elsewhere here before]
          exact isWatchpointHit_run reads there
        rw [EStateM.run_bind, found]
        rcases watched : s.hitWatchpoint k tid with _ | bp
        · exact ⟨s, rfl, ⟨rfl, rfl⟩, .refl sound callbackless⟩
        · obtain ⟨t, credited, same, hit⟩ := creditHit_contributed view tid u
            sound callbackless (mem_hittable_of_watchpoint watched)
          exact ⟨t, credited, ⟨same.contexts, same.kernel⟩, hit.mono (List.nil_subset _)⟩
      · have found : (findHit k tid thread ip).run s = .ok (some bp)
            ((s.setBack thread.registerFile ip).updateBreakpoint bp
              fun b => { b with linkedThreadIds := b.linkedThreadIds ++ [tid] }) := by
          simp only [findHit, EStateM.run_bind, EStateM.run_get, here, before]
          rfl
        have linked : Contributed view [tid] _ s _ :=
          setBack_contributed sound callbackless live ip bp
        obtain ⟨address, -, active⟩ := Option.bind_eq_some_iff.mp before
        have hittable : bp ∈ s.hittable := mem_hittable_of_active active
        obtain ⟨t, credited, same, hit⟩ := creditHit_contributed view tid u
          linked.sound linked.callbackless hittable
        refine ⟨t, ?_, ⟨same.contexts, same.kernel⟩, linked.trans (hit.mono (List.nil_subset _))⟩
        rw [EStateM.run_bind, found]
        exact credited
    · obtain ⟨t, credited, same, hit⟩ := creditHit_contributed view tid u
        sound callbackless (mem_hittable_of_active here)
      refine ⟨t, ?_, ⟨same.contexts, same.kernel⟩, hit.mono (List.nil_subset _)⟩
      rw [EStateM.run_bind, findHit_at here]
      exact credited

omit sound callbackless in
/-- Without its manager a thread that has hit no breakpoint cannot be asked for watchpoints. -/
theorem handleBreakpoints_raises (live : s.liveFile tid = some file)
    (elsewhere : s.trapBreakpoint (s.globalState.files file .rip) = none)
    (unmanaged : s.hardwareBpHelpers.get? tid = none) :
    ∃ e, (handleBreakpoints k u tid).run s = .error e s := by
  obtain ⟨thread, rfl, handled⟩ := handleBreakpoints_run (k := k) (u := u) live
  obtain ⟨here, before⟩ := Option.or_eq_none_iff.mp elsewhere
  have missing : (getHelper tid : Py K HardwareBreakpointManager).run s =
      .error (.raised .keyError) s := by
    simp only [getHelper, EStateM.run_bind, EStateM.run_get, unmanaged]
    rfl
  refine ⟨.raised .keyError, ?_⟩
  rw [handled, EStateM.run_bind, findHit_elsewhere here before, isWatchpointHit, EStateM.run_bind,
    missing]

end Traps

/-! ### System calls -/

/-- The state with other handlers, in which the process has stopped if the flag is set -/
def Debugger.withHandlers (s : Debugger K) (handlers : Dict Nat SyscallHandler) (stops : Bool) :
    Debugger K :=
  { s with
    handledSyscalls := handlers
    resumeContext := { s.resumeContext with resume := s.resumeContext.resume && !stops } }

section Syscalls

variable {u : UserCode K} {number : Nat} {handler : SyscallHandler}
  (found : s.handledSyscalls.get? number = some handler) (silent : handler.Callbackless)

include found

theorem withHandlers_contributed (sound : s.Sound) (callbackless : s.Callbackless)
    {handlers : Dict Nat SyscallHandler}
    (after : ∀ n, handlers.get? n =
      if n = number then some handler.after else s.handledSyscalls.get? n) :
    Contributed view [] [.syscall number] s (s.withHandlers handlers handler.enabled) := by
  have same : SamePrivate s (s.withHandlers handlers handler.enabled) := ⟨rfl, rfl, rfl, rfl, rfl⟩
  constructor
  · have changed : handlers.get? = Function.update s.tally.handlers number
        ((s.tally.handlers number).map SyscallHandler.after) := by
      funext n
      rw [after]
      by_cases here : n = number
      · subst here
        rw [if_pos rfl, Function.update_self]
        exact (congrArg (Option.map SyscallHandler.after) found).symm
      · rw [if_neg here, Function.update_of_ne here]
        rfl
    have decides : (s.tally.handlers number).any (·.enabled) = handler.enabled := by
      have here : s.tally.handlers number = some handler := found
      rw [here, Option.any_some]
    simp only [Tally.addAll_cons, Tally.addAll_nil, Tally.add, Tally.stopIf, ← changed, decides]
    rfl
  · exact ⟨rfl, fun _ => rfl⟩
  · rfl
  · exact fun tid _ => same.undisturbed tid
  · exact same.sound sound rfl
  · refine ⟨callbackless.breakpoints, fun n other there => ?_, callbackless.catchers⟩
    rw [Debugger.withHandlers, after] at there
    split at there
    · rw [← Option.some.inj there, callbackless_after]
      exact callbackless.handlers number handler found
    · exact callbackless.handlers n other there

include silent

theorem stopsOn_callbackless : s.stopsOn number = handler.enabled := by
  simp only [stopsOn_of_found found, silent.1, silent.2, decide_true, Bool.true_and]

omit found silent in
/-- The end of either branch of `_handle_syscall` -/
theorem run_stopsOn (stops : s.stopsOn number = true ↔ handler.enabled = true) :
    (do
      let s ← get
      if s.stopsOn number then modify (·.setResume false) : Py K Unit).run s =
        .ok () (s.withHandlers s.handledSyscalls handler.enabled) := by
  simp only [EStateM.run_bind, EStateM.run_get, stops]
  cases handler.enabled with
  | true => simp [Debugger.withHandlers, Debugger.setResume]
  | false => simp [Debugger.withHandlers]

theorem exitHandler_run (thread : ThreadContext) : ∃ handlers,
    (exitHandler u thread number handler).run s = .ok () (s.withHandlers handlers handler.enabled) ∧
      ∀ n, handlers.get? n =
        if n = number then some handler.exited else s.handledSyscalls.get? n := by
  set left := (s.updateHandler number fun h =>
    if h.enabled && !h.skipExit then { h with hitCount := h.hitCount + 1 } else h).updateHandler
      number ({ · with hasEntered := false, skipExit := false }) with leaves
  have after : ∀ n, left.handledSyscalls.get? n =
      if n = number then some handler.exited else s.handledSyscalls.get? n := by
    intro n
    simp only [leaves, Debugger.updateHandler, Dict.get?_modify]
    by_cases here : n = number
    · simp only [here, if_true, found, Option.map_some, SyscallHandler.exited]
      split <;> rfl
    · simp only [here, if_false]
  have there : left.handledSyscalls.get? number = some handler.exited := by
    rw [after, if_pos rfl]
  have still : handler.exited.Callbackless := silent
  have stops : left.stopsOn number = handler.exited.enabled := stopsOn_callbackless there still
  refine ⟨left.handledSyscalls, ?_, after⟩
  have none : callOnExit u thread number handler = pure () := by
    rw [callOnExit, silent.2]
  have body : (exitHandler u thread number handler).run s = (do
      let s ← get
      if s.stopsOn number then modify (·.setResume false) : Py K Unit).run left := by
    rw [exitHandler, none]
    rfl
  rw [body, run_stopsOn (Bool.eq_iff_iff.mp stops)]
  rfl

omit silent in
/-- The flag of a handler, set whether or not it was set before -/
theorem get?_setHasEntered (n : Nat) :
    (s.updateHandler number ({ · with hasEntered := true })).handledSyscalls.get? n =
      if n = number then some { handler with hasEntered := true }
      else s.handledSyscalls.get? n := by
  simp only [Debugger.updateHandler, Dict.get?_modify, found, Option.map_some]

/-- The end of `_manage_syscall_on_enter` -/
theorem leaveEnter_run : ∃ handlers,
    (leaveEnter number : Py K Unit).run s = .ok () (s.withHandlers handlers handler.enabled) ∧
      ∀ n, handlers.get? n =
        if n = number then some { handler with hasEntered := handler.hasEntered || handler.enabled }
        else s.handledSyscalls.get? n := by
  have stops : s.stopsOn number = handler.enabled := stopsOn_callbackless found silent
  rcases Bool.eq_false_or_eq_true handler.enabled with enabled | enabled
  · refine ⟨(s.updateHandler number ({ · with hasEntered := true })).handledSyscalls, ?_, ?_⟩
    · have stop : s.stopsOn number = true := stops.trans enabled
      simp only [leaveEnter, EStateM.run_bind, EStateM.run_get, stop, if_true, enabled]
      simp [setHasEntered, Debugger.withHandlers, Debugger.updateHandler, Debugger.setResume]
    · intro n
      have flag : (handler.hasEntered || handler.enabled) = true := by rw [enabled, Bool.or_true]
      rw [get?_setHasEntered found, flag]
  · refine ⟨s.handledSyscalls, ?_, ?_⟩
    · have stop : s.stopsOn number = false := stops.trans enabled
      simp [leaveEnter, stop, Debugger.withHandlers, enabled]
    · intro n
      have flag : (handler.hasEntered || handler.enabled) = handler.hasEntered := by
        rw [enabled, Bool.or_false]
      rw [flag]
      split
      · rename_i here
        rw [here, found]
      · rfl

theorem manageSyscallOnEnter_run (outside : handler.hasEntered = false) (thread : ThreadContext)
    (fuel : Nat) (hijackedSet : List Nat) : ∃ handlers,
    (manageSyscallOnEnter u thread (fuel + 1) number hijackedSet).run s =
      .ok () (s.withHandlers handlers handler.enabled) ∧
      ∀ n, handlers.get? n =
        if n = number then some handler.entered else s.handledSyscalls.get? n := by
  have body : (manageSyscallOnEnter u thread (fuel + 1) number hijackedSet).run s =
      ((if handler.onEnterPprint || handler.onExitPprint || handler.onExitUser.isSome then
          setHasEntered number
        else pure ()) >>= fun _ => leaveEnter number).run s := by
    rw [manageSyscallOnEnter, EStateM.run_bind, EStateM.run_get]
    dsimp only
    rw [found]
    dsimp only
    rw [enterHandler_silent (.inl silent.1)]
    rfl
  rw [body]
  have entered : handler.entered = { handler with
      hasEntered := (handler.onEnterPprint || handler.onExitPprint || handler.onExitUser.isSome) ||
        handler.enabled } := by
    simp only [SyscallHandler.entered, SyscallHandler.tracksPhase, outside, Bool.false_or,
      Bool.or_comm handler.enabled, Bool.or_assoc]
  cases tracked : handler.onEnterPprint || handler.onExitPprint || handler.onExitUser.isSome with
  | true =>
      have there := get?_setHasEntered found
      have marked : (s.updateHandler number ({ · with hasEntered := true })).handledSyscalls.get?
          number = some { handler with hasEntered := true } := by rw [there, if_pos rfl]
      obtain ⟨handlers, left, after⟩ := leaveEnter_run marked silent
      refine ⟨handlers, left, fun n => ?_⟩
      rw [after, there, entered, tracked]
      split <;> rfl
  | false =>
      obtain ⟨handlers, left, after⟩ := leaveEnter_run found silent
      refine ⟨handlers, left, fun n => ?_⟩
      rw [after, entered, tracked, outside]

theorem handleSyscall_handled_run (live : s.liveFile tid = some file)
    (shown : s.globalState.files file .origRax = number) : ∃ handlers,
    (handleSyscall u tid).run s = .ok () (s.withHandlers handlers handler.enabled) ∧
      ∀ n, handlers.get? n =
        if n = number then some handler.after else s.handledSyscalls.get? n := by
  obtain ⟨thread, context, -, rfl⟩ := liveFile_eq_some.mp live
  have here : s.handledSyscalls.get? (s.syscallNumber thread) = some handler := by
    rw [Debugger.syscallNumber, Debugger.readReg, shown, found]
  have body : (handleSyscall u tid).run s =
      (if handler.hasEntered then exitHandler u thread number handler
        else manageSyscallOnEnter u thread (s.handledSyscalls.keys.length + 1) number
          [number]).run s := by
    rw [handleSyscall, EStateM.run_bind, EStateM.run_get]
    dsimp only
    rw [context]
    dsimp only
    rw [here]
    subst shown
    rfl
  rw [body, SyscallHandler.after]
  cases entered : handler.hasEntered with
  | true => exact exitHandler_run found silent thread
  | false => exact manageSyscallOnEnter_run found silent entered thread _ _

end Syscalls

variable (view tid) in
theorem handleSyscall_contributed (u : UserCode K) (sound : s.Sound)
    (callbackless : s.Callbackless) : ∃ t, (handleSyscall u tid).run s = .ok () t ∧
      Contributed view [] ((s.liveFile tid).toList.map fun file =>
        .syscall (s.globalState.files file .origRax)) s t := by
  rcases live : s.liveFile tid with _ | file
  · refine ⟨s, ?_, .refl sound callbackless⟩
    have unknown : (s.getThreadById tid).bind (s.threads[·]?) = none :=
      Option.map_eq_none_iff.mp live
    rw [handleSyscall, EStateM.run_bind, EStateM.run_get]
    dsimp only
    rw [unknown]
    rfl
  · rcases found : s.handledSyscalls.get? (s.globalState.files file .origRax) with _ | handler
    · refine ⟨s, ?_, ?_⟩
      · obtain ⟨thread, context, -, rfl⟩ := liveFile_eq_some.mp live
        have absent : s.handledSyscalls.get? (s.syscallNumber thread) = none := found
        rw [handleSyscall, EStateM.run_bind, EStateM.run_get]
        dsimp only
        rw [context]
        dsimp only
        rw [absent]
        rfl
      · have same : s.tally = s.tally.addAll [.syscall (s.globalState.files file .origRax)] :=
          (Tally.add_syscall_absent found).symm
        exact contributed_of_flags sound callbackless ⟨rfl, rfl, rfl, rfl, rfl⟩ rfl rfl rfl rfl rfl
          same
    · obtain ⟨handlers, handled, after⟩ := handleSyscall_handled_run (u := u) found
        (callbackless.handlers _ _ found) live rfl
      exact ⟨_, handled, withHandlers_contributed found sound callbackless after⟩

/-! ### Signals -/

section Signals

variable {u : UserCode K} (sound : s.Sound) (callbackless : s.Callbackless)

include sound callbackless

/-- A catcher without a callback counts the signal, and the process stops. -/
theorem countCatch_contributed {number : Nat} {catcher : SignalCatcher}
    (found : s.caughtSignals.get? number = some catcher) (on : catcher.enabled = true) :
    Contributed view [] [.signal number] s ((s.countCatch number).setResume false) := by
  have same : SamePrivate s ((s.countCatch number).setResume false) := ⟨rfl, rfl, rfl, rfl, rfl⟩
  have after (n : Nat) : ((s.countCatch number).setResume false).caughtSignals.get? n =
      if n = number then some catcher.counted else s.caughtSignals.get? n := by
    simp only [Debugger.countCatch, Debugger.updateCatcher, Debugger.setResume, Dict.get?_modify,
      found, Option.map_some, SignalCatcher.counted, on, if_true]
  constructor
  · have here : s.tally.catchers number = some catcher := found
    have changed : ((s.countCatch number).setResume false).caughtSignals.get? =
        Function.update s.tally.catchers number (some catcher.counted) := by
      funext n
      rw [after]
      by_cases other : n = number
      · rw [if_pos other, other, Function.update_self]
      · rw [if_neg other, Function.update_of_ne other]
        rfl
    simp only [Tally.addAll_cons, Tally.addAll_nil, Tally.add, Tally.stopIf, here, Option.any_some,
      on, Bool.not_true, Bool.and_false, Option.map_some, ← changed]
    rfl
  · exact ⟨rfl, fun _ => rfl⟩
  · rfl
  · exact fun tid _ => same.undisturbed tid
  · exact same.sound sound Dict.keys_modify
  · refine ⟨callbackless.breakpoints, callbackless.handlers, fun n other there => ?_⟩
    rw [after] at there
    split at there
    · rw [← Option.some.inj there, SignalCatcher.counted, if_pos on]
      exact callbackless.catchers number catcher found
    · exact callbackless.catchers n other there

variable (view tid u) in
theorem manageCaughtSignal_contributed (thread fuel number : Nat) (hijackedSet : List Nat) :
    ∃ t, (manageCaughtSignal u thread tid (fuel + 1) number hijackedSet).run s = .ok () t ∧
      Contributed view [] [.signal number] s t := by
  have unheard (off : ∀ catcher, s.caughtSignals.get? number = some catcher →
      catcher.enabled = false) : Contributed view [] [.signal number] s s :=
    contributed_of_flags sound callbackless ⟨rfl, rfl, rfl, rfl, rfl⟩ rfl rfl rfl rfl rfl
      (Tally.add_signal_unheard off).symm
  rw [manageCaughtSignal, EStateM.run_bind, EStateM.run_get]
  dsimp only
  rcases found : s.caughtSignals.get? number with _ | catcher
  · exact ⟨s, rfl, unheard fun catcher there => by rw [found] at there; cases there⟩
  · dsimp only
    rcases Bool.eq_false_or_eq_true catcher.enabled with on | off
    · have named : hasSignalName number = true :=
        (sound.catchable number (Dict.mem_keys.mpr ⟨catcher, found⟩)).2
      have silent : catcher.callback = none := callbackless.catchers number catcher found
      refine ⟨_, ?_, countCatch_contributed sound callbackless found on⟩
      simp only [on, Bool.not_true, Bool.false_eq_true, if_false, EStateM.run_bind,
        EStateM.run_modify, run_resolveSignalName named, silent]
      rfl
    · refine ⟨s, ?_, unheard fun other there => ?_⟩
      · simp only [off, Bool.not_false, if_true]
        rfl
      · rw [found] at there
        rw [← Option.some.inj there, off]

variable (view) in
theorem appendSignalToForward_contributed (pid : Int) (signum : Nat) :
    ∃ t, (appendSignalToForward pid signum).run s = .ok () t ∧ Contributed view [] [] s t := by
  refine ⟨_, rfl, ?_⟩
  dsimp only
  split
  · exact contributed_of_flags sound callbackless ⟨rfl, rfl, rfl, rfl, rfl⟩ rfl rfl rfl rfl rfl rfl
  · exact .refl sound callbackless

theorem receive_contributed (st : ThreadStatus) (thread signum : Nat) :
    Contributed view [] [] s (s.receive st thread signum) := by
  have world : (s.receive st thread signum).world.mem = s.world.mem ∧
      (s.receive st thread signum).world.os = s.world.os := by
    unfold Debugger.receive
    split <;> exact ⟨rfl, rfl⟩
  have same : SamePrivate s (s.receive st thread signum) :=
    ⟨rfl, s.identities_withNumber thread signum, rfl, world.1, world.2⟩
  have tally : (s.receive st thread signum).tally = s.tally := by
    rw [Debugger.tally, same.ips]
    rfl
  exact contributed_of_flags sound callbackless same rfl rfl rfl rfl rfl tally

variable (view u) in
theorem handleStop_contributed (st : ThreadStatus) :
    ∃ t, (handleStop u st (wstopsig st.status)).run s = .ok () t ∧
      Contributed view [] (s.signalContributions st) s t := by
  rcases found : s.getThreadById st.tid with _ | thread
  · have unknown : s.liveFile st.tid = none := by
      rw [Debugger.liveFile, found]
      rfl
    refine ⟨s, ?_, ?_⟩
    · rw [handleStop, EStateM.run_bind, run_getThreadById, found]
      rfl
    · rw [Debugger.signalContributions, if_neg (by simp [unknown])]
      exact .refl sound callbackless
  · set received := s.receive st thread (wstopsig st.status) with receives
    have shown : received.signalNumber thread = wstopsig st.status :=
      Debugger.signalNumber_withNumber_self found _
    have first : Contributed view [] [] s received := receive_contributed sound callbackless st _ _
    obtain ⟨caught, handled, second⟩ := manageCaughtSignal_contributed view st.tid u first.sound
      first.callbackless thread received.caughtSignals.keys.length (wstopsig st.status)
      [wstopsig st.status]
    obtain ⟨t, appended, third⟩ := appendSignalToForward_contributed view second.sound
      second.callbackless st.tid (wstopsig st.status)
    refine ⟨t, ?_, ?_⟩
    · have handles : (handleSignal u thread st.tid).run received = .ok () caught := by
        rw [handleSignal, EStateM.run_bind, EStateM.run_get]
        dsimp only
        rw [shown]
        exact handled
      rw [handleStop, EStateM.run_bind, run_getThreadById, found]
      dsimp only
      rw [EStateM.run_bind, EStateM.run_modify, ← receives]
      dsimp only
      rw [EStateM.run_bind, handles]
      exact appended
    · have known : (s.liveFile st.tid).isSome = true := by
        obtain ⟨⟨context, there, -⟩, -⟩ := Debugger.getThreadById_eq_some.mp found
        simp [Debugger.liveFile, found, there]
      have all := (first.trans second).trans third
      by_cases stop : wstopsig st.status = SIGSTOP
      · rw [Debugger.signalContributions, if_neg (by simp [stop])]
        refine { all with tally := all.tally.trans ?_ }
        have uncaught : ∀ catcher, s.tally.catchers (wstopsig st.status) = some catcher →
            catcher.enabled = false := by
          intro catcher there
          have listed := sound.catchable _ (Dict.mem_keys.mpr ⟨catcher, there⟩)
          exact absurd stop listed.1
        exact Tally.add_signal_unheard uncaught
      · rw [Debugger.signalContributions, if_pos ⟨stop, known⟩]
        exact all

end Signals

/-! ### Exits -/

section Exits

variable {contexts : List (Int × Bool × Ptr)} {other : Int}

theorem filter_markDead_other (different : other ≠ tid) :
    (markDead tid contexts).filter (·.1 = other) = contexts.filter (·.1 = other) := by
  induction contexts with
  | nil => rfl
  | cons context rest ih =>
      unfold markDead
      split
      · rename_i own
        have outside : context.1 ≠ other := fun same => different (same.symm.trans own)
        rw [List.filter_cons_of_neg (by simpa using outside),
          List.filter_cons_of_neg (by simpa using outside)]
      · rw [List.filter_cons, List.filter_cons, ih]

theorem filter_eraseP_other (different : other ≠ tid) (nodes : List (Int × Ptr)) :
    (nodes.eraseP (·.1 = tid)).filter (·.1 = other) = nodes.filter (·.1 = other) := by
  induction nodes with
  | nil => rfl
  | cons node rest ih =>
      by_cases own : node.1 = tid
      · have outside : node.1 ≠ other := fun same => different (same.symm.trans own)
        rw [List.eraseP_cons_of_pos (by simpa using own),
          List.filter_cons_of_neg (by simpa using outside)]
      · rw [List.eraseP_cons_of_neg (by simpa using own), List.filter_cons, List.filter_cons, ih]

theorem ips_eq (s : Debugger K) (tid : Int) : s.ips tid =
    ((s.identities.map fun context => (context.1, context.2.2)).filter (·.1 = tid)).map
      fun owner => instructionPointer (s.globalState.files owner.2) := by
  rw [Debugger.ips, List.filter_map, List.map_map]
  rfl

/-- What a thread that exits leaves behind -/
def Debugger.withoutThread (s : Debugger K) (tid : Int) (exitCode exitSignal : Option Nat) :
    Debugger K :=
  { s.unregistered tid exitCode exitSignal with
    hardwareBpHelpers := s.hardwareBpHelpers.erase tid }

theorem withoutThread_contributed (sound : s.Sound) (callbackless : s.Callbackless)
    (exitCode exitSignal : Option Nat) :
    Contributed view [tid] [] s (s.withoutThread tid exitCode exitSignal) := by
  have contexts : (s.withoutThread tid exitCode exitSignal).identities =
      markDead tid s.identities := setThreadAsDead_identities _ tid exitCode exitSignal
  obtain ⟨threads, marked⟩ := setThreadAsDead_eq
    (s.withLib (Cffi.unregisterThread s.globalState tid) s.world) tid exitCode exitSignal
  have apart : (s.unregistered tid exitCode exitSignal).FilesApart :=
    sound.files.unregistered exitCode exitSignal
  have gone : s.withoutThread tid exitCode exitSignal =
      { s with
        globalState := Cffi.unregisterThread s.globalState tid
        threads
        hardwareBpHelpers := s.hardwareBpHelpers.erase tid } := by
    rw [Debugger.withoutThread, Debugger.unregistered, marked]
    rfl
  have heap := (unregisterThread_heap s.globalState tid).1
  set left := s.withoutThread tid exitCode exitSignal with leaves
  have library : left.globalState = Cffi.unregisterThread s.globalState tid := by rw [gone]
  have nodes : nodeIds left.globalState = (nodeIds s.globalState).eraseP (·.1 = tid) := by
    rw [library, unregisterThread_nodeIds]
  have ips : left.ips = s.ips := by
    funext other
    rw [ips_eq, ips_eq, contexts, files_markDead, library, heap]
  constructor
  · rw [Tally.addAll_nil, Debugger.tally, ips, gone]
    rfl
  · rw [gone]
    exact ⟨rfl, fun _ => rfl⟩
  · rw [gone]
  · intro other outside
    have different : other ≠ tid := fun same => outside (List.mem_singleton.mpr same)
    constructor
    · rw [Debugger.part, Debugger.part, contexts, nodes, filter_markDead_other different,
        filter_eraseP_other different, gone]
      dsimp only
      rw [Dict.get?_erase, if_neg different]
    · intro file _
      rw [library, heap]
    · rw [gone]
  · refine ⟨apart.of_owners (fun _ member => member) rfl, ?_⟩
    rw [gone]
    exact sound.catchable
  · rw [gone]
    refine callbackless.of_breakpoints ⟨rfl, fun _ => rfl⟩ (fun bp member => ?_) rfl rfl
    rcases List.mem_append.mp member with listed | installed
    · exact List.mem_append_left _ listed
    · obtain ⟨helper, there, held⟩ := List.mem_flatMap.mp installed
      obtain ⟨owner, found⟩ := Dict.mem_values.mp there
      rw [Dict.get?_erase] at found
      split_ifs at found
      exact mem_hittable_of_held found held

theorem liveFile_isSome (s : Debugger K) (tid : Int) :
    (s.liveFile tid).isSome = (s.getThreadById tid).isSome := by
  rcases found : s.getThreadById tid with _ | thread
  · rw [Debugger.liveFile, found]
    rfl
  · obtain ⟨⟨context, there, -⟩, -⟩ := Debugger.getThreadById_eq_some.mp found
    simp [Debugger.liveFile, found, there]

/-- The last step of `unregister_thread` -/
theorem handleExit_run (exitCode exitSignal : Option Nat) :
    (handleExit tid exitCode exitSignal).run s =
      if (s.liveFile tid).isSome then (popHelper tid).run
        (s.unregistered tid exitCode exitSignal)
      else .ok () s := by
  rw [handleExit, EStateM.run_bind, run_getThreadById, liveFile_isSome]
  dsimp only
  split <;> rfl

variable (view) in
theorem handleExit_contributed (sound : s.Sound) (callbackless : s.Callbackless)
    (managed : (s.liveFile tid).isSome → (s.hardwareBpHelpers.get? tid).isSome)
    (exitCode exitSignal : Option Nat) :
    ∃ t, (handleExit tid exitCode exitSignal).run s = .ok () t ∧
      Contributed view [tid] [] s t := by
  rw [handleExit_run]
  split
  · rename_i known
    obtain ⟨helper, there⟩ := Option.isSome_iff_exists.mp (managed known)
    refine ⟨s.withoutThread tid exitCode exitSignal, ?_,
      withoutThread_contributed sound callbackless exitCode exitSignal⟩
    have helpers : (s.unregistered tid exitCode exitSignal).hardwareBpHelpers =
        s.hardwareBpHelpers := unregistered_helpers exitCode exitSignal
    have listed : tid ∈ (s.unregistered tid exitCode exitSignal).hardwareBpHelpers.keys := by
      rw [helpers]
      exact Dict.mem_keys.mpr ⟨helper, there⟩
    rw [Debugger.withoutThread, popHelper, EStateM.run_bind, EStateM.run_get]
    dsimp only
    rw [if_pos listed, EStateM.run_modify, helpers]
  · exact ⟨s, rfl, .refl sound callbackless⟩

theorem handleExit_raises (known : (s.liveFile tid).isSome)
    (unmanaged : s.hardwareBpHelpers.get? tid = none) (exitCode exitSignal : Option Nat) :
    ∃ e t, (handleExit tid exitCode exitSignal).run s = .error e t := by
  have unlisted : tid ∉ (s.unregistered tid exitCode exitSignal).hardwareBpHelpers.keys := by
    rw [unregistered_helpers]
    exact Dict.get?_eq_none.mp unmanaged
  rw [handleExit_run, if_pos known, popHelper, EStateM.run_bind, EStateM.run_get]
  dsimp only
  rw [if_neg unlisted]
  exact ⟨_, _, rfl⟩

end Exits

end Libdebug.Ptrace
