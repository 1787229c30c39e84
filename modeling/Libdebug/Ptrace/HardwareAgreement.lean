import Libdebug.Ptrace.Tables

/-!
Whether the managers of the threads hold the hardware breakpoints that are enabled.

A breakpoint is installed in every manager when it is created and when `cont` finds it
marked and enabled, and removed when `cont` finds it marked and disabled. A new thread
has every hardware breakpoint installed. So a breakpoint that is switched off and on again
is installed twice, one that is off when a thread is cloned is installed there, and one
whose place is taken stays installed. Where none of this happens the managers hold each
enabled breakpoint once, and nothing else, each time `cont` has applied the changes.
-/

namespace Libdebug.Ptrace

open Libdebug.Foundation Libdebug.Cffi

variable {K : Type} (k : Kernel K) (u : UserCode K)

/-- Every manager holds each enabled breakpoint once and nothing else. -/
def Snapshot.HardwareAgrees (snapshot : Snapshot) : Prop :=
  ∀ entry ∈ snapshot.registers, (heldIn DebugReg.all entry.2).Perm snapshot.hardware

instance (snapshot : Snapshot) : Decidable snapshot.HardwareAgrees := by
  unfold Snapshot.HardwareAgrees
  infer_instance

/-! ### Commands that keep the managers in step -/

/-- There are managers, and all hold every hardware breakpoint there is. -/
def Debugger.AllHeld (s : Debugger K) : Prop :=
  ∀ bp ∈ s.breakpoints.values, (s.objects bp).hardware = true →
    s.hardwareBpHelpers.values ≠ [] ∧ ∀ helper ∈ s.hardwareBpHelpers.values, bp ∈ helper.held

/-- No manager holds the breakpoint. -/
def Debugger.NotHeld (s : Debugger K) (bp : Ref) : Prop :=
  ∀ helper ∈ s.hardwareBpHelpers.values, bp ∉ helper.held

/-- Threads are cloned while the managers hold every hardware breakpoint. -/
def Debugger.ClonesHeld (results : List ThreadStatus) : List ThreadStatus → Debugger K → Prop
  | [], _ => True
  | st :: rest, s =>
      (wifstopped st.status = true → st.status / 256 = StopEvent.clone.value → s.AllHeld) ∧
        Returning (handleChange k u st results) (fun _ t => ClonesHeld results rest t) s

def Debugger.WaitHeld (s : Debugger K) (fuel : Nat) : Prop :=
  Returning (waitResults k fuel) (fun results t =>
    (t.noteManaged results).ClonesHeld k u results (results.filter (·.tid ≠ -1))) s

/-- What is created takes the place of nothing that is installed, what is to be installed
is not installed yet, and changes are applied to the end. -/
def KeepsHardware (s : Debugger K) : Command → Prop
  | .registerNewThread _ => s.AllHeld
  | .setupParent fuel =>
      Debugger.WaitHeld k u
        { s with resumeContext := { s.resumeContext with isStartup := true } } fuel
  | .breakpoint address _ _ _ _ _ =>
      ∀ bp ∈ s.breakpoints.get? address, (s.objects bp).hardware = true → s.NotHeld bp
  | .cont =>
      s.applies k = true ∧
        ∀ bp ∈ s.breakpoints.values, (s.objects bp).hardware = true →
          (s.objects bp).changed = true → (s.objects bp).enabled = true → s.NotHeld bp
  | .finish _ _ heuristic _ => heuristic ≠ "backtrace"
  | .wait fuel => (s.setResume true).WaitHeld k u fuel
  | _ => True

instance (s : Debugger K) : Decidable s.AllHeld := by
  unfold Debugger.AllHeld
  infer_instance

instance (s : Debugger K) (bp : Ref) : Decidable (s.NotHeld bp) := by
  unfold Debugger.NotHeld
  infer_instance

instance Debugger.ClonesHeld.decidable (results : List ThreadStatus) :
    ∀ (rest : List ThreadStatus) (s : Debugger K), Decidable (s.ClonesHeld k u results rest)
  | [], _ => .isTrue trivial
  | st :: rest, s =>
      have := decidable results rest
      inferInstanceAs (Decidable ((wifstopped st.status = true →
        st.status / 256 = StopEvent.clone.value → s.AllHeld) ∧
        Returning (handleChange k u st results) (fun _ t => t.ClonesHeld k u results rest) s))

instance (s : Debugger K) (fuel : Nat) : Decidable (s.WaitHeld k u fuel) := by
  unfold Debugger.WaitHeld
  infer_instance

instance : DecidableRel (KeepsHardware k u) := fun s command => by
  cases command <;> (unfold KeepsHardware; infer_instance)

/-! ### The invariant -/

variable {k u} {s t : Debugger K} {pending rest : List Ref} {bp : Ref}
  {before after helper : HardwareBreakpointManager}

/-- The manager holds the enabled breakpoints, but for those that are marked as changed or
still to be applied. -/
structure Faithful (s : Debugger K) (pending : List Ref) (helper : HardwareBreakpointManager) :
    Prop where
  counted : helper.breakpointCount = helper.held.length
  once : helper.held.Nodup
  known : ∀ bp ∈ helper.held, bp ∈ s.breakpoints.values ∧ (s.objects bp).hardware = true ∧
    (ctrlCondVal (s.objects bp).condition).isSome ∧ (ctrlLenVal (s.objects bp).length).isSome
  settled : ∀ bp ∈ s.breakpoints.values, (s.objects bp).hardware = true →
    (s.objects bp).changed = false → bp ∉ pending →
      (bp ∈ helper.held ↔ (s.objects bp).enabled = true)
  absent : ∀ bp ∈ pending, (s.objects bp).hardware = true → (s.objects bp).enabled = true →
    bp ∉ helper.held

theorem Faithful.congr (faithful : Faithful s pending helper) (objects : t.objects = s.objects)
    (breakpoints : t.breakpoints = s.breakpoints) : Faithful t pending helper := by
  obtain ⟨counted, once, known, settled, absent⟩ := faithful
  rw [← objects, ← breakpoints] at known settled
  rw [← objects] at absent
  exact ⟨counted, once, known, settled, absent⟩

structure HardwareInOrder (pending : List Ref) (s : Debugger K) : Prop where
  filed : s.Filed
  faithful : ∀ helper ∈ s.hardwareBpHelpers.values, Faithful s pending helper
  uniform : ∀ first ∈ s.hardwareBpHelpers.values, ∀ second ∈ s.hardwareBpHelpers.values,
    first.held.Perm second.held

theorem HardwareInOrder.frame (inOrder : HardwareInOrder [] s) {F : Finset Field}
    (changes : Changes Field.same F s t)
    (apart : (.objects ∉ F ∧ .breakpoints ∉ F) ∧ .helpers ∉ F) : HardwareInOrder [] t := by
  have helpers : t.hardwareBpHelpers = s.hardwareBpHelpers := changes .helpers apart.2
  have breakpoints : t.breakpoints = s.breakpoints := changes .breakpoints apart.1.2
  obtain ⟨-, toggled⟩ : s.Toggles t := changes .objects apart.1.1
  refine ⟨inOrder.filed.frame changes apart.1, ?_, helpers ▸ inOrder.uniform⟩
  rw [helpers]
  intro helper member
  have faithful := inOrder.faithful helper member
  refine ⟨faithful.counted, faithful.once, fun bp held => ?_,
    fun bp filed hardware unchanged _ => ?_,
    fun bp waiting => absurd waiting List.not_mem_nil⟩
  · obtain ⟨filed, hardware, condition, length⟩ := faithful.known bp held
    obtain ⟨⟨-, sameKind, sameCondition, sameLength⟩, -⟩ := toggled bp (inOrder.filed.old filed)
    rw [breakpoints, sameKind, sameCondition, sameLength]
    exact ⟨filed, hardware, condition, length⟩
  · rw [breakpoints] at filed
    obtain ⟨⟨-, sameKind, -⟩, flags⟩ := toggled bp (inOrder.filed.old filed)
    obtain ⟨flag, mark⟩ := flags.resolve_right (by simp [unchanged])
    rw [flag]
    exact faithful.settled bp filed (sameKind ▸ hardware) (mark ▸ unchanged) List.not_mem_nil

theorem allHeld_frame (filed : s.Filed) (allHeld : s.AllHeld) {F : Finset Field}
    (changes : Changes Field.same F s t)
    (apart : (.objects ∉ F ∧ .breakpoints ∉ F) ∧ .helpers ∉ F) : t.AllHeld := by
  have helpers : t.hardwareBpHelpers = s.hardwareBpHelpers := changes .helpers apart.2
  have breakpoints : t.breakpoints = s.breakpoints := changes .breakpoints apart.1.2
  obtain ⟨-, toggled⟩ : s.Toggles t := changes .objects apart.1.1
  intro bp member hardware
  rw [breakpoints] at member
  rw [helpers]
  exact allHeld bp member ((toggled bp (filed.old member)).1.2.1 ▸ hardware)

/-- With the marks off and nothing left to apply the managers agree. -/
theorem HardwareInOrder.agrees (inOrder : HardwareInOrder [] s)
    (settled : ∀ bp ∈ s.breakpoints.values, (s.objects bp).changed = false) :
    s.snapshot.HardwareAgrees := by
  intro entry member
  obtain ⟨⟨threadId, helper⟩, there, rfl⟩ := List.mem_map.mp member
  have faithful := inOrder.faithful helper (List.mem_map_of_mem there)
  refine (List.perm_ext_iff_of_nodup faithful.once (inOrder.filed.nodup.filter _)).mpr fun bp => ?_
  rw [List.mem_filter, Bool.and_eq_true]
  constructor
  · intro held
    obtain ⟨filed, hardware, -⟩ := faithful.known bp held
    exact ⟨filed, hardware,
      (faithful.settled bp filed hardware (settled bp filed) List.not_mem_nil).mp held⟩
  · rintro ⟨filed, hardware, enabled⟩
    exact (faithful.settled bp filed hardware (settled bp filed) List.not_mem_nil).mpr enabled

/-! ### Applying the changes -/

/-- A breakpoint that is to be applied is installed. -/
theorem Faithful.install (faithful : Faithful s (bp :: rest) before)
    (distinct : (bp :: rest).Nodup) (filed : bp ∈ s.breakpoints.values)
    (hardware : (s.objects bp).hardware = true) (enabled : (s.objects bp).enabled = true)
    (installable : Installable before (s.objects bp)) (installed : Installed bp before after) :
    Faithful s rest after := by
  obtain ⟨counted, held⟩ := installed
  have fresh := faithful.absent bp List.mem_cons_self hardware enabled
  have mem {other : Ref} : other ∈ after.held ↔ other = bp ∨ other ∈ before.held :=
    held.mem_iff.trans List.mem_cons
  refine ⟨?_, held.nodup_iff.mpr (List.nodup_cons.mpr ⟨fresh, faithful.once⟩),
    fun other member => ?_,
    fun other member kind unchanged applied => ?_, fun other waiting kind on member => ?_⟩
  · rw [counted, held.length_eq, faithful.counted, List.length_cons]
  · rcases mem.mp member with rfl | old
    · exact ⟨filed, hardware, installable.condition, installable.length⟩
    · exact faithful.known other old
  · rw [mem]
    by_cases same : other = bp
    · subst same
      simp [enabled]
    · rw [or_iff_right same]
      exact faithful.settled other member kind unchanged (by simp [same, applied])
  · rcases mem.mp member with rfl | old
    · exact (List.nodup_cons.mp distinct).1 waiting
    · exact faithful.absent other (List.mem_cons_of_mem _ waiting) kind on old

/-- A breakpoint that is to be applied is removed. -/
theorem Faithful.remove (faithful : Faithful s (bp :: rest) before) (filing : s.Filed)
    (filed : bp ∈ s.breakpoints.values) (disabled : (s.objects bp).enabled = false)
    (removed : Removed s.objects bp before after) :
    before.held.Perm (bp :: after.held) ∧ Faithful s rest after := by
  obtain ⟨counted, installed, equal, held⟩ := removed
  -- breakpoints that are filed differ in their addresses
  obtain rfl : installed = bp := filing.unique filed
    (faithful.known installed (held.mem_iff.mpr List.mem_cons_self)).1 (by rw [equal])
  obtain ⟨gone, once⟩ := List.nodup_cons.mp (held.nodup_iff.mp faithful.once)
  have mem {other : Ref} (different : other ≠ installed) :
      other ∈ after.held ↔ other ∈ before.held := by
    rw [held.mem_iff, List.mem_cons, or_iff_right different]
  refine ⟨held, ?_, once, fun other member => ?_, fun other member kind unchanged applied => ?_,
    fun other waiting kind on member => ?_⟩
  · rw [counted, faithful.counted, held.length_eq, List.length_cons, Nat.add_sub_cancel]
  · exact faithful.known other (held.mem_iff.mpr (List.mem_cons_of_mem _ member))
  · by_cases same : other = installed
    · subst same
      simp [gone, disabled]
    · rw [mem same]
      exact faithful.settled other member kind unchanged (by simp [same, applied])
  · have different : other ≠ installed := by
      rintro rfl
      exact gone member
    exact faithful.absent other (List.mem_cons_of_mem _ waiting) kind on ((mem different).mp member)

/-- A software breakpoint is not applied to the managers. -/
theorem Faithful.skip (faithful : Faithful s (bp :: rest) helper)
    (software : (s.objects bp).hardware = false) : Faithful s rest helper :=
  ⟨faithful.counted, faithful.once, faithful.known, fun other member kind unchanged applied => by
    refine faithful.settled other member kind unchanged fun waiting => ?_
    rcases List.mem_cons.mp waiting with rfl | later
    · simp [software] at kind
    · exact applied later,
    fun other waiting => faithful.absent other (List.mem_cons_of_mem _ waiting)⟩

/-- After a loop over all managers each comes from one before it. -/
theorem forM_helpers (rel : HardwareBreakpointManager → HardwareBreakpointManager → Prop)
    {f : Int → Py K Unit}
    (step : ∀ r t threadId, r.objects = s.objects → (f threadId).run r = .ok () t →
      ChangesManager rel threadId r t)
    (returned : (s.hardwareBpHelpers.keys.forM f).run s = .ok () t) :
    ∃ os helpers, t = s.withHelpers os helpers ∧
      ∀ after ∈ helpers.values, ∃ before ∈ s.hardwareBpHelpers.values, rel before after := by
  obtain ⟨os, helpers, rfl, known⟩ := forM_managers step s.hardwareBpHelpers.distinct rfl returned
  refine ⟨os, helpers, rfl, fun after member => ?_⟩
  obtain ⟨threadId, found⟩ := Dict.mem_values.mp member
  obtain ⟨before, there, related⟩ := known threadId after found
  have listed : threadId ∈ s.hardwareBpHelpers.keys := Dict.mem_keys.mpr ⟨before, there⟩
  rw [Dict.keys] at listed
  rw [if_pos listed] at related
  exact ⟨before, Dict.mem_values.mpr ⟨threadId, there⟩, related⟩

theorem forM_install_ok (returned : (s.hardwareBpHelpers.keys.forM fun threadId =>
      installBreakpoint k threadId bp).run s = .ok () t) :
    ∃ os helpers, t = s.withHelpers os helpers ∧ ∀ after ∈ helpers.values,
      ∃ before ∈ s.hardwareBpHelpers.values,
        Installable before (s.objects bp) ∧ Installed bp before after := by
  apply forM_helpers
    (fun before after => Installable before (s.objects bp) ∧ Installed bp before after)
    (fun r t threadId same returned => ?_) returned
  exact same ▸ installBreakpoint_ok returned

theorem forM_remove_ok (returned : (s.hardwareBpHelpers.keys.forM fun threadId =>
      removeBreakpoint k threadId bp).run s = .ok () t) :
    ∃ os helpers, t = s.withHelpers os helpers ∧ ∀ after ∈ helpers.values,
      ∃ before ∈ s.hardwareBpHelpers.values, Removed s.objects bp before after := by
  apply forM_helpers (Removed s.objects bp) (fun r t threadId same returned => ?_) returned
  exact same ▸ removeBreakpoint_ok returned

/-- While the changes are applied the breakpoints stay as they were when it began. -/
structure ApplyingHardware (start : Debugger K) (rest : List Ref) (s : Debugger K) : Prop where
  inOrder : HardwareInOrder rest s
  objects : s.objects = start.objects
  breakpoints : s.breakpoints = start.breakpoints
  applied : s.applied = start.applied
  filed : ∀ bp ∈ rest, bp ∈ start.breakpoints.values
  distinct : rest.Nodup

namespace ApplyingHardware

variable {start : Debugger K}

theorem next (applying : ApplyingHardware start (bp :: rest) s) (inOrder : HardwareInOrder rest t)
    (objects : t.objects = s.objects) (breakpoints : t.breakpoints = s.breakpoints)
    (applied : t.applied = s.applied) : ApplyingHardware start rest t :=
  ⟨inOrder, objects.trans applying.objects, breakpoints.trans applying.breakpoints,
    applied.trans applying.applied,
    fun other member => applying.filed other (List.mem_cons_of_mem _ member),
    (List.nodup_cons.mp applying.distinct).2⟩

theorem skip (applying : ApplyingHardware start (bp :: rest) s)
    (software : (s.objects bp).hardware = false) (g : GlobalState) (w : World K) :
    ApplyingHardware start rest (s.withLib g w) :=
  applying.next ⟨applying.inOrder.filed,
    fun helper member =>
      ((applying.inOrder.faithful helper member).skip software).congr rfl rfl,
    applying.inOrder.uniform⟩ rfl rfl rfl

theorem install (applying : ApplyingHardware start (bp :: rest) s)
    (filed : bp ∈ s.breakpoints.values) (hardware : (s.objects bp).hardware = true)
    (enabled : (s.objects bp).enabled = true)
    (returned : (s.hardwareBpHelpers.keys.forM fun threadId =>
      installBreakpoint k threadId bp).run s = .ok () t) : ApplyingHardware start rest t := by
  obtain ⟨os, helpers, rfl, known⟩ := forM_install_ok returned
  refine applying.next ⟨applying.inOrder.filed, fun after member => ?_,
    fun first member second other => ?_⟩ rfl rfl rfl
  · obtain ⟨before, earlier, installable, installed⟩ := known after member
    exact ((applying.inOrder.faithful before earlier).install applying.distinct filed hardware
      enabled installable installed).congr rfl rfl
  · obtain ⟨before, earlier, -, -, held⟩ := known first member
    obtain ⟨before', earlier', -, -, held'⟩ := known second other
    exact held.trans (((applying.inOrder.uniform before earlier before' earlier').cons bp).trans
      held'.symm)

theorem remove (applying : ApplyingHardware start (bp :: rest) s)
    (filed : bp ∈ s.breakpoints.values) (disabled : (s.objects bp).enabled = false)
    (returned : (s.hardwareBpHelpers.keys.forM fun threadId =>
      removeBreakpoint k threadId bp).run s = .ok () t) : ApplyingHardware start rest t := by
  obtain ⟨os, helpers, rfl, known⟩ := forM_remove_ok returned
  have removes (before : HardwareBreakpointManager) (earlier : before ∈ s.hardwareBpHelpers.values)
      {after : HardwareBreakpointManager} (removed : Removed s.objects bp before after) :=
    (applying.inOrder.faithful before earlier).remove applying.inOrder.filed filed disabled removed
  refine applying.next ⟨applying.inOrder.filed, fun after member => ?_,
    fun first member second other => ?_⟩ rfl rfl rfl
  · obtain ⟨before, earlier, removed⟩ := known after member
    exact (removes before earlier removed).2.congr rfl rfl
  · obtain ⟨before, earlier, removed⟩ := known first member
    obtain ⟨before', earlier', removed'⟩ := known second other
    exact ((removes before earlier removed).1.symm.trans
      ((applying.inOrder.uniform before earlier before' earlier').trans
        (removes before' earlier' removed').1)).cons_inv

theorem applyChange (applying : ApplyingHardware start (bp :: rest) s)
    (returned : (applyChange k bp).run s = .ok () t) : ApplyingHardware start rest t := by
  have filed : bp ∈ s.breakpoints.values :=
    applying.breakpoints ▸ applying.filed bp List.mem_cons_self
  obtain ⟨_, _, read, returned⟩ := ok_of_bind returned
  cases read
  split at returned
  · rename_i enabled
    obtain ⟨_, _, placed, returned⟩ := ok_of_bind returned
    cases returned
    obtain ⟨_, _, read, placed⟩ := ok_of_bind placed
    cases read
    split at placed
    · rename_i hardware
      exact applying.install filed hardware enabled placed
    · rename_i software
      obtain ⟨_, _, read, placed⟩ := ok_of_bind placed
      cases read
      obtain ⟨g, w, -, rfl⟩ := callLib?_ok placed
      exact applying.skip (Bool.eq_false_of_not_eq_true software) g w
  · rename_i disabled
    obtain ⟨_, _, displaced, returned⟩ := ok_of_bind returned
    cases returned
    obtain ⟨_, _, read, displaced⟩ := ok_of_bind displaced
    cases read
    split at displaced
    · exact applying.remove filed (Bool.eq_false_of_not_eq_true disabled) displaced
    · rename_i software
      obtain ⟨_, _, read, displaced⟩ := ok_of_bind displaced
      cases read
      obtain ⟨g, w, -, rfl⟩ := callLib?_ok displaced
      exact applying.skip (Bool.eq_false_of_not_eq_true software) g w

end ApplyingHardware

theorem HardwareInOrder.settle (inOrder : HardwareInOrder [] s)
    (apart : ∀ bp ∈ s.breakpoints.values, (s.objects bp).hardware = true →
      (s.objects bp).changed = true → (s.objects bp).enabled = true → s.NotHeld bp) :
    HardwareInOrder (s.breakpoints.values.filter fun bp => (s.objects bp).changed)
      (s.settle s.breakpoints.values) := by
  have same (bp : Ref) : ((s.settle s.breakpoints.values).objects bp).address =
      (s.objects bp).address ∧ ((s.settle s.breakpoints.values).objects bp).hardware =
      (s.objects bp).hardware ∧ ((s.settle s.breakpoints.values).objects bp).enabled =
      (s.objects bp).enabled ∧ ((s.settle s.breakpoints.values).objects bp).condition =
      (s.objects bp).condition ∧ ((s.settle s.breakpoints.values).objects bp).length =
      (s.objects bp).length := by
    simp only [Debugger.settle]
    split <;> exact ⟨rfl, rfl, rfl, rfl, rfl⟩
  refine ⟨fun address bp found => ?_, fun helper member => ?_, inOrder.uniform⟩
  · rw [(same bp).1]
    exact inOrder.filed address bp found
  · have faithful := inOrder.faithful helper member
    refine ⟨faithful.counted, faithful.once, fun bp held => ?_,
      fun bp filed hardware _ unlisted => ?_,
      fun bp waiting hardware enabled => ?_⟩
    · obtain ⟨-, sameKind, -, sameCondition, sameLength⟩ := same bp
      rw [sameKind, sameCondition, sameLength]
      exact faithful.known bp held
    · rw [(same bp).2.1] at hardware
      rw [(same bp).2.2.1]
      refine faithful.settled bp filed hardware ?_ List.not_mem_nil
      by_contra changed
      exact unlisted (List.mem_filter.mpr ⟨filed, by simpa using changed⟩)
    · obtain ⟨filed, changed⟩ := List.mem_filter.mp waiting
      rw [(same bp).2.1] at hardware
      rw [(same bp).2.2.1] at enabled
      exact apart bp filed hardware changed enabled helper member

/-- Changes that are applied to the end make the managers agree. -/
theorem cont_inOrder_hardware (applies : s.applies k = true)
    (apart : ∀ bp ∈ s.breakpoints.values, (s.objects bp).hardware = true →
      (s.objects bp).changed = true → (s.objects bp).enabled = true → s.NotHeld bp)
    (inOrder : HardwareInOrder [] s) :
    HardwareInOrder [] (stateAfter (cont k) s) ∧ ∃ snapshot : Snapshot, snapshot.HardwareAgrees ∧
      (stateAfter (cont k) s).applied = snapshot :: s.applied := by
  obtain ⟨forwarded, t, first, second, taken, last⟩ := cont_applied applies
  have left := forwardSignals_leaves.of_ok first
  simp only [Same, Prod.mk.injEq] at left
  obtain ⟨objects, -, breakpoints, helpers, applied⟩ := left
  have before := inOrder.frame (forwardSignals_touches.of_ok first) (by decide)
  have stillApart : ∀ bp ∈ forwarded.breakpoints.values, (forwarded.objects bp).hardware = true →
      (forwarded.objects bp).changed = true → (forwarded.objects bp).enabled = true →
        forwarded.NotHeld bp := by
    simpa only [Debugger.NotHeld, objects, breakpoints, helpers] using apart
  have start : ApplyingHardware (forwarded.settle forwarded.breakpoints.values)
      (forwarded.breakpoints.values.filter fun bp => (forwarded.objects bp).changed)
      (forwarded.settle forwarded.breakpoints.values) :=
    ⟨before.settle stillApart, rfl, rfl, rfl, fun bp member => (List.mem_filter.mp member).1,
      before.filed.nodup.filter _⟩
  have ended := forM_ok (fun _ _ _ _ applying returned => applying.applyChange returned) start
    (applyChanges_ok before.filed second)
  have settled : ∀ bp ∈ t.breakpoints.values, (t.objects bp).changed = false := by
    intro bp member
    rw [ended.breakpoints] at member
    rw [ended.objects]
    have known : bp ∈ forwarded.breakpoints.values := member
    simp [Debugger.settle, known]
  refine ⟨ended.inOrder.frame last (by decide), t.snapshot, ended.inOrder.agrees settled, ?_⟩
  rw [taken, ended.applied]
  exact congrArg (t.snapshot :: ·) applied

/-! ### Creating a breakpoint -/

/-- A manager that takes the breakpoint is one among managers that all do. -/
theorem Installable.of_perm {first second : HardwareBreakpointManager} {object : Breakpoint}
    (installable : Installable first object) (held : first.held.Perm second.held)
    (counted : second.breakpointCount = second.held.length) : Installable second object := by
  have room : second.held.length < dbregsCount := held.length_eq ▸ installable.room
  exact ⟨counted ▸ room, room, installable.condition, installable.length⟩

/-- A breakpoint that every manager takes is installed in all. -/
theorem forM_install_returns (reads : ReadsUserArea k) {threadIds : List Int}
    (distinct : threadIds.Nodup) (takes : ∀ threadId ∈ threadIds, ∃ helper,
      s.hardwareBpHelpers.get? threadId = some helper ∧ Installable helper (s.objects bp)) :
    ∃ t, (threadIds.forM fun threadId => installBreakpoint k threadId bp).run s = .ok () t := by
  induction threadIds generalizing s with
  | nil => exact ⟨s, rfl⟩
  | cons first rest ih =>
      obtain ⟨absent, distinct⟩ := List.nodup_cons.mp distinct
      obtain ⟨⟨helper, found, installable⟩, others⟩ := List.forall_mem_cons.mp takes
      obtain ⟨r, installed⟩ := installBreakpoint_returns reads found installable
      obtain ⟨os, -, f, -, -, rfl⟩ := installBreakpoint_ok installed
      obtain ⟨t, returned⟩ := ih (s := s.withHelpers os (s.hardwareBpHelpers.modify first f))
        distinct
        fun threadId member => by
          obtain ⟨helper, found, installable⟩ := others threadId member
          have different : threadId ≠ first := fun same => absent (same ▸ member)
          refine ⟨helper, ?_, installable⟩
          simp only [Debugger.withHelpers, Dict.get?_modify, if_neg different, found]
      refine ⟨t, ?_⟩
      simp only [List.forM, EStateM.run_bind, installed]
      exact returned

/-- Managers that hold the same take a breakpoint or refuse it together. -/
theorem forM_install_raises (reads : ReadsUserArea k) (inOrder : HardwareInOrder pending s)
    {e : Abort} (raised : (s.hardwareBpHelpers.keys.forM fun threadId =>
      installBreakpoint k threadId bp).run s = .error e t) :
    t.hardwareBpHelpers = s.hardwareBpHelpers := by
  have distinct : s.hardwareBpHelpers.keys.Nodup := s.hardwareBpHelpers.distinct
  have known : ∀ threadId ∈ s.hardwareBpHelpers.keys, ∃ helper,
      s.hardwareBpHelpers.get? threadId = some helper := fun _ => Dict.mem_keys.mp
  rcases keys : s.hardwareBpHelpers.keys with _ | ⟨first, rest⟩
  · rw [keys] at raised
    cases raised
  · have all := keys
    rw [keys] at raised
    rcases here : (installBreakpoint k first bp).run s with ⟨_, r⟩ | ⟨e', r⟩
    · obtain ⟨_, helper, _, found, ⟨installable, -⟩, -⟩ := installBreakpoint_ok here
      have takes : ∀ threadId ∈ first :: rest, ∃ helper,
          s.hardwareBpHelpers.get? threadId = some helper ∧ Installable helper (s.objects bp) := by
        intro threadId member
        obtain ⟨other, foundOther⟩ := known threadId (all ▸ member)
        have otherMember := Dict.mem_values.mpr ⟨threadId, foundOther⟩
        exact ⟨other, foundOther, installable.of_perm
          (inOrder.uniform helper (Dict.mem_values.mpr ⟨first, found⟩) other otherMember)
          (inOrder.faithful other otherMember).counted⟩
      obtain ⟨t, returned⟩ := forM_install_returns reads (all ▸ distinct) takes
      rw [returned] at raised
      cases raised
    · simp only [List.forM, EStateM.run_bind, here] at raised
      cases raised
      exact installBreakpoint_raises first bp _ _ _ here

/-- A breakpoint that is filed is still to be applied to a manager that holds nothing with
its address. -/
theorem Faithful.refile (faithful : Faithful s [] helper) (filing : s.Filed)
    (breakpoints : t.breakpoints = s.breakpoints.set (s.objects bp).address bp)
    (objects : t.objects = s.objects)
    (apart : ∀ other ∈ helper.held, (s.objects other).address ≠ (s.objects bp).address) :
    Faithful t [bp] helper := by
  have found (address : Nat) : t.breakpoints.get? address =
      if address = (s.objects bp).address then some bp else s.breakpoints.get? address := by
    rw [breakpoints, Dict.get?_set]
  refine ⟨faithful.counted, faithful.once, fun other held => ?_,
    fun other filed kind unchanged listed => ?_,
    fun other waiting _ _ held => ?_⟩
  · obtain ⟨filed, known⟩ := faithful.known other held
    rw [objects]
    refine ⟨Dict.mem_values.mpr ⟨(s.objects other).address, ?_⟩, known⟩
    rw [found, if_neg (apart other held)]
    exact filing.address filed
  · have different : other ≠ bp := fun same => listed (List.mem_singleton.mpr same)
    obtain ⟨address, there⟩ := Dict.mem_values.mp filed
    rw [found] at there
    split at there
    · exact absurd (Option.some.inj there).symm different
    · rw [objects] at kind unchanged ⊢
      exact faithful.settled other (Dict.mem_values.mpr ⟨address, there⟩) kind unchanged
        List.not_mem_nil
  · exact apart other held (by rw [List.mem_singleton.mp waiting])

/-- Where nothing that is installed loses its place to the new breakpoint. -/
theorem setBreakpoint_insert_hardware (reads : ReadsUserArea k) (inOrder : HardwareInOrder [] s)
    (old : bp < s.nextRef) (on : (s.objects bp).enabled = true)
    (apart : ∀ other, s.breakpoints.get? (s.objects bp).address = some other →
      (s.objects other).hardware = true → s.NotHeld other) :
    HardwareInOrder [] (stateAfter (setBreakpoint k bp true) s) := by
  have elsewhere (helper) (member : helper ∈ s.hardwareBpHelpers.values) (other)
      (held : other ∈ helper.held) : (s.objects other).address ≠ (s.objects bp).address := by
    intro same
    obtain ⟨filed, hardware, -⟩ := (inOrder.faithful helper member).known other held
    exact apart other (same ▸ inOrder.filed.address filed) hardware helper member held
  by_cases hardware : (s.objects bp).hardware = true
  · have placing : (placeBreakpoint k bp true).run s =
      (s.hardwareBpHelpers.keys.forM fun threadId =>
        installBreakpoint k threadId bp).run s := by
      simp only [placeBreakpoint, EStateM.run_bind, EStateM.run_get, hardware, if_true]
    refine stateAfter_bind (fun e r raised => ?_) fun _ r returned => ?_
    · have same := forM_install_raises reads inOrder (placing ▸ raised)
      obtain ⟨os, helpers, rfl⟩ := stateAfter_of_error raised ▸
        placeBreakpoint_onlyManagers (k := k) hardware true
      obtain rfl : helpers = s.hardwareBpHelpers := same
      exact ⟨inOrder.filed, fun helper member => (inOrder.faithful helper member).congr rfl rfl,
        inOrder.uniform⟩
    · obtain ⟨os, helpers, rfl, known⟩ := forM_install_ok (placing ▸ returned)
      rw [if_pos rfl, stateAfter_modify]
      have inserted : (s.breakpoints.set (s.objects bp).address bp).get? (s.objects bp).address =
          some bp := by
        rw [Dict.get?_set, if_pos rfl]
      refine ⟨inOrder.filed.set old rfl rfl rfl, fun after member => ?_,
        fun first member second other => ?_⟩
      · obtain ⟨before, earlier, installable, installed⟩ := known after member
        have waiting := (inOrder.faithful before earlier).refile
          (t := { s.withHelpers os helpers with
            breakpoints := s.breakpoints.set (s.objects bp).address bp })
          inOrder.filed rfl rfl (elsewhere before earlier)
        exact waiting.install (List.nodup_singleton bp)
          (Dict.mem_values.mpr ⟨_, inserted⟩) hardware on
          installable installed
      · obtain ⟨before, earlier, -, -, held⟩ := known first member
        obtain ⟨before', earlier', -, -, held'⟩ := known second other
        exact held.trans (((inOrder.uniform before earlier before' earlier').cons bp).trans
          held'.symm)
  · have software := Bool.eq_false_of_not_eq_true hardware
    have registers : (placeBreakpoint k bp true).run s = .ok () (s.withLib
        (registerBreakpoint s.globalState s.world (s.objects bp).address).1
        (registerBreakpoint s.globalState s.world (s.objects bp).address).2) := by
      simp only [placeBreakpoint, EStateM.run_bind, EStateM.run_get, software]
      rfl
    rw [setBreakpoint, stateAfter_bind_ok registers, if_pos rfl, stateAfter_modify]
    refine ⟨inOrder.filed.set old rfl rfl rfl, fun helper member => ?_, inOrder.uniform⟩
    have waiting := (inOrder.faithful helper member).refile
      (t := { s with breakpoints := s.breakpoints.set (s.objects bp).address bp })
      inOrder.filed rfl rfl (elsewhere helper member)
    exact (waiting.skip software).congr rfl rfl

/-! ### New and dead threads -/

/-- A manager with enough room takes the breakpoints of a list one after the other. -/
theorem forM_install_list (reads : ReadsUserArea k) {threadId : Int} {bps : List Ref}
    (found : s.hardwareBpHelpers.get? threadId = some helper)
    (counted : helper.breakpointCount = helper.held.length)
    (room : helper.held.length + bps.length ≤ dbregsCount)
    (valid : ∀ bp ∈ bps, (ctrlCondVal (s.objects bp).condition).isSome ∧
      (ctrlLenVal (s.objects bp).length).isSome) :
    ∃ os helpers filled, (bps.forM (installBreakpoint k threadId)).run s =
        .ok () (s.withHelpers os helpers) ∧
      (∀ other, helpers.get? other =
        if other = threadId then some filled else s.hardwareBpHelpers.get? other) ∧
      filled.breakpointCount = filled.held.length ∧ filled.held.Perm (bps ++ helper.held) := by
  induction bps generalizing s helper with
  | nil =>
      refine ⟨s.world.os, s.hardwareBpHelpers, helper, rfl, fun other => ?_, counted, .refl _⟩
      split
      · rename_i same
        rw [same, found]
      · rfl
  | cons bp rest ih =>
      obtain ⟨⟨condition, length⟩, later⟩ := List.forall_mem_cons.mp valid
      rw [List.length_cons] at room
      have installable : Installable helper (s.objects bp) :=
        ⟨by omega, by omega, condition, length⟩
      obtain ⟨r, installed⟩ := installBreakpoint_returns reads found installable
      obtain ⟨os, helper', f, same, ⟨-, count, held⟩, rfl⟩ := installBreakpoint_ok installed
      rw [found] at same
      cases same
      have foundAfter : (s.hardwareBpHelpers.modify threadId f).get? threadId =
          some (f helper) := by
        rw [Dict.get?_modify, if_pos rfl, found, Option.map_some]
      have lengthAfter := held.length_eq
      rw [List.length_cons] at lengthAfter
      obtain ⟨os', helpers, filled, returned, others, full, filledHeld⟩ :=
        ih (s := s.withHelpers os (s.hardwareBpHelpers.modify threadId f)) foundAfter
          (by omega) (by omega) later
      refine ⟨os', helpers, filled, ?_, fun other => ?_, full, ?_⟩
      · simp only [List.forM, EStateM.run_bind, installed]
        exact returned
      · rw [others other]
        split
        · rfl
        · rename_i different
          simp only [Debugger.withHelpers, Dict.get?_modify, if_neg different]
      · refine filledHeld.trans ((held.append_left rest).trans ?_)
        exact List.perm_middle

section AllHeld

variable {s : Debugger K} {helper : HardwareBreakpointManager} (inOrder : HardwareInOrder [] s)
  (allHeld : s.AllHeld)

include inOrder allHeld

/-- Every manager holds just the hardware breakpoints. -/
theorem held_perm (member : helper ∈ s.hardwareBpHelpers.values) :
    helper.held.Perm (s.breakpoints.values.filter fun bp => (s.objects bp).hardware) := by
  refine (List.perm_ext_iff_of_nodup (inOrder.faithful helper member).once
    (inOrder.filed.nodup.filter _)).mpr fun bp => ?_
  rw [List.mem_filter]
  refine ⟨fun held => ?_, fun ⟨filed, hardware⟩ => (allHeld bp filed hardware).2 helper member⟩
  obtain ⟨filed, hardware, -⟩ := (inOrder.faithful helper member).known bp held
  exact ⟨filed, hardware⟩

omit inOrder in
theorem exists_holder {bp : Ref}
    (member : bp ∈ s.breakpoints.values.filter fun bp => (s.objects bp).hardware) :
    ∃ helper ∈ s.hardwareBpHelpers.values, bp ∈ helper.held := by
  obtain ⟨filed, hardware⟩ := List.mem_filter.mp member
  obtain ⟨some, all⟩ := allHeld bp filed hardware
  obtain ⟨helper, there⟩ := List.exists_mem_of_ne_nil _ some
  exact ⟨helper, there, all helper there⟩

/-- Any one of the managers shows that there is room for the hardware breakpoints. -/
theorem hardware_room : (s.breakpoints.values.filter fun bp => (s.objects bp).hardware).length ≤
    dbregsCount := by
  rcases listed : s.breakpoints.values.filter fun bp => (s.objects bp).hardware with _ | ⟨bp, rest⟩
  · exact Nat.zero_le _
  · obtain ⟨helper, member, -⟩ := exists_holder allHeld (listed ▸ List.mem_cons_self)
    rw [← listed, ← (held_perm inOrder allHeld member).length_eq]
    exact held_length_le helper

end AllHeld

/-- A thread that is registered while all managers hold every breakpoint gets one that
does as well. -/
theorem registerNewThread_allHeld (reads : ReadsUserArea k) (threadId : Int) :
    Maintains (fun s => HardwareInOrder [] s ∧ s.AllHeld) (registerNewThread k threadId) := by
  rintro s ⟨inOrder, allHeld⟩
  have room := hardware_room inOrder allHeld
  set bps := s.breakpoints.values.filter fun bp => (s.objects bp).hardware with hardwareBps
  have distinct : bps.Nodup := inOrder.filed.nodup.filter _
  have memBps {bp : Ref} : bp ∈ bps ↔
      bp ∈ s.breakpoints.values ∧ (s.objects bp).hardware = true := by
    rw [hardwareBps, List.mem_filter]
  set g := (registerThread k s.globalState s.world threadId).2 with registered
  set file := (registerThread k s.globalState s.world threadId).1
  set next := (s.withLib g s.world).insertNewThread threadId file with inserted
  have fresh : next.hardwareBpHelpers.get? threadId = some {} :=
    Dict.get?_set.trans (if_pos rfl)
  obtain ⟨os, helpers, filled, returned, others, full, held⟩ := forM_install_list reads
    fresh rfl (by simpa [HardwareBreakpointManager.held, heldIn] using room : _ + bps.length ≤ _)
    fun bp member => by
      obtain ⟨helper, there, isHeld⟩ := exists_holder allHeld member
      exact ((inOrder.faithful helper there).known bp isHeld).2.2
  have ended : stateAfter (registerNewThread k threadId) s = next.withHelpers os helpers :=
    stateAfter_of_ok (by simp only [registerNewThread]; exact returned)
  rw [ended]
  have heldBps : filled.held.Perm bps := by
    simpa [HardwareBreakpointManager.held, heldIn] using held
  have which {helper : HardwareBreakpointManager} (member : helper ∈ helpers.values) :
      helper = filled ∨ helper ∈ s.hardwareBpHelpers.values := by
    obtain ⟨otherId, found⟩ := Dict.mem_values.mp member
    rw [others otherId] at found
    split at found
    · exact .inl (Option.some.inj found).symm
    · rename_i different
      refine .inr (Dict.mem_values.mpr ⟨otherId, ?_⟩)
      rwa [inserted, Debugger.insertNewThread, Debugger.withLib, Dict.get?_set, if_neg different]
        at found
  have perm {helper : HardwareBreakpointManager} (member : helper ∈ helpers.values) :
      helper.held.Perm bps := by
    rcases which member with rfl | earlier
    · exact heldBps
    · exact held_perm inOrder allHeld earlier
  refine ⟨⟨inOrder.filed, fun helper member => ?_, fun first member second other =>
    (perm member).trans (perm other).symm⟩, fun bp filed hardware => ⟨?_, fun helper member => ?_⟩⟩
  · rcases which member with rfl | earlier
    · refine ⟨full, heldBps.nodup_iff.mpr distinct, fun bp isHeld => ?_,
        fun bp filed hardware unchanged _ => ?_, fun bp waiting => absurd waiting List.not_mem_nil⟩
      · have listed := heldBps.mem_iff.mp isHeld
        obtain ⟨filed, hardware⟩ := memBps.mp listed
        obtain ⟨helper, there, isHeld⟩ := exists_holder allHeld listed
        exact ⟨filed, hardware, ((inOrder.faithful helper there).known bp isHeld).2.2⟩
      · have listed := memBps.mpr ⟨filed, hardware⟩
        obtain ⟨helper, there, isHeld⟩ := exists_holder allHeld listed
        exact iff_of_true (heldBps.mem_iff.mpr listed)
          (((inOrder.faithful helper there).settled bp filed hardware unchanged
            List.not_mem_nil).mp isHeld)
    · exact (inOrder.faithful helper earlier).congr rfl rfl
  · have there : filled ∈ helpers.values :=
      Dict.mem_values.mpr ⟨threadId, by rw [others, if_pos rfl]⟩
    exact List.ne_nil_of_mem there
  · exact (perm member).mem_iff.mpr (memBps.mpr ⟨filed, hardware⟩)

theorem unregisterThread_inOrder_hardware (threadId : Int) (exitCode exitSignal : Option Nat) :
    Maintains (HardwareInOrder [])
      (unregisterThread threadId exitCode exitSignal : Py K Unit) := by
  refine Keeps.bind (fun s inOrder => ⟨inOrder.filed, fun helper member =>
    (inOrder.faithful helper member).congr rfl rfl, inOrder.uniform⟩) fun _ =>
    Keeps.bind (fun s inOrder => inOrder.frame (setThreadAsDead_touches _ _ _ s)
      (by decide)) fun _ =>
      Keeps.get.bind fun _ => Keeps.ite (fun _ => Keeps.modify fun s inOrder => ?_)
        fun _ => Keeps.throw _
  have fewer {helper : HardwareBreakpointManager}
      (member : helper ∈ (s.hardwareBpHelpers.erase threadId).values) :
      helper ∈ s.hardwareBpHelpers.values := by
    obtain ⟨otherId, found⟩ := Dict.mem_values.mp member
    rw [Dict.get?_erase] at found
    split at found
    · cases found
    · exact Dict.mem_values.mpr ⟨otherId, found⟩
  exact ⟨inOrder.filed, fun helper member => (inOrder.faithful helper (fewer member)).congr rfl rfl,
    fun first member second other => inOrder.uniform first (fewer member) second (fewer other)⟩

/-! ### Commands -/

/-- Between two commands, with what has been taken down so far. -/
structure HardwareKept (s : Debugger K) : Prop where
  inOrder : HardwareInOrder [] s
  agreed : ∀ snapshot ∈ s.applied, snapshot.HardwareAgrees

theorem Touches.hardwareKept {α : Type} {F : Finset Field} {p : Py K α} (touches : Touches F p)
    (apart : ((.objects ∉ F ∧ .breakpoints ∉ F) ∧ .helpers ∉ F) ∧ .applied ∉ F) :
    Maintains HardwareKept p := by
  intro s kept
  have applied : (stateAfter p s).applied = s.applied := touches s .applied apart.2
  exact ⟨kept.inOrder.frame (touches s) apart.1, applied ▸ kept.agreed⟩

theorem HardwareKept.of_touches {α : Type} {F : Finset Field} {p : Py K α} (kept : HardwareKept s)
    (touches : Touches F p) (apart : .applied ∉ F) (inOrder : HardwareInOrder [] (stateAfter p s)) :
    HardwareKept (stateAfter p s) := by
  have applied : (stateAfter p s).applied = s.applied := touches s .applied apart
  exact ⟨inOrder, applied ▸ kept.agreed⟩

/-- A breakpoint that is made and set takes the place of nothing that is installed. -/
theorem createBreakpoint_inOrder_hardware (reads : ReadsUserArea k) (inOrder : HardwareInOrder [] s)
    (object : Breakpoint) (on : object.enabled = true)
    (apart : ∀ other, s.breakpoints.get? object.address = some other →
      (s.objects other).hardware = true → s.NotHeld other) :
    HardwareInOrder []
      (stateAfter (setBreakpoint k s.nextRef true) (stateAfter (newBreakpoint object) s)) := by
  have made := inOrder.frame (newBreakpoint_touches (F := ∅) object s) (by decide)
  apply setBreakpoint_insert_hardware reads made (Nat.lt_succ_self _)
  · rwa [newBreakpoint_object]
  · intro other found hardware
    rw [newBreakpoint_object] at found
    rw [newBreakpoint_others object inOrder.filed found] at hardware
    exact apart other found hardware

theorem breakpoint_inOrder_hardware (reads : ReadsUserArea k) (inOrder : HardwareInOrder [] s)
    {address : Nat} {symbol : String} {hardware : Bool} {condition : Option String} {length : Nat}
    {callback : Option Callback}
    (apart : ∀ bp ∈ s.breakpoints.get? address, (s.objects bp).hardware = true → s.NotHeld bp) :
    HardwareInOrder []
      (stateAfter (breakpoint k address symbol hardware condition length callback) s) := by
  refine stateAfter_bind (fun e r raised => ?_) fun _ r alive => ?_
  · obtain rfl : r = s := ensureAlive_keeps.of_error (R := Same id) raised
    exact inOrder
  · obtain rfl : r = s := ensureAlive_keeps.of_ok (R := Same id) alive
    refine stateAfter_bind (fun e q raised => ?_) fun _ q checked => ?_
    · obtain rfl : q = r := (checkCondition_keeps _ _ _).of_error (R := Same id) raised
      exact inOrder
    · obtain rfl : q = r := (checkCondition_keeps _ _ _).of_ok (R := Same id) checked
      dsimp only
      rw [stateAfter_bind_ok (run_newBreakpoint _ _)]
      have created := createBreakpoint_inOrder_hardware reads inOrder
        { address, symbol, hardware, callback, length,
          condition :=
            if hardware ∧ (condition = none ∨ condition = some "") then some "x" else condition }
        rfl apart
      refine stateAfter_bind (fun e r raised => ?_) fun _ r returned => ?_
      · rwa [stateAfter_of_error raised] at created
      · rw [stateAfter_of_ok returned] at created
        rw [confirmInserted, stateAfter_get_bind]
        split <;> exact created

/-! ### Waiting -/

/-- Neither the flags of the status handler nor functions of the user matter. -/
theorem ignores_allHeld {F : Finset Field}
    (apart : (.objects ∉ F ∧ .breakpoints ∉ F) ∧ .helpers ∉ F) :
    Ignores (K := K) (Implies fun s => HardwareInOrder [] s ∧ s.AllHeld) F := by
  rintro s t changes ⟨inOrder, allHeld⟩
  exact ⟨inOrder.frame changes apart, allHeld_frame inOrder.filed allHeld changes apart⟩

/-- The status handler with a clone among the events that it may deal with. -/
theorem internalSignalHandler_allHeld (reads : ReadsUserArea k) (pid : Int) (signum : Nat)
    (results : List ThreadStatus) (status : Nat) :
    Maintains (fun s => HardwareInOrder [] s ∧ s.AllHeld)
      (internalSignalHandler k u pid signum results status) := by
  apply internalSignalHandler_keeps (ignores_allHeld (by decide))
  · intro site callback threadId
    exact (runCallback_touches site callback threadId).keeps (ignores_allHeld (by decide))
  · intro _ threadId
    exact registerNewThread_allHeld reads threadId

/-- The status handler where the event is another one. -/
theorem internalSignalHandler_inOrder_hardware {pid : Int} {signum : Nat}
    {results : List ThreadStatus} {status : Nat} (other : status / 256 ≠ StopEvent.clone.value) :
    Maintains (HardwareInOrder []) (internalSignalHandler k u pid signum results status) := by
  apply internalSignalHandler_keeps
  · intro s t changes inOrder
    exact inOrder.frame changes (by decide)
  · intro site callback threadId s inOrder
    exact inOrder.frame (runCallback_touches site callback threadId s) (by decide)
  · intro clone
    exact absurd clone other

theorem handleChange_inOrder_hardware (reads : ReadsUserArea k) {st : ThreadStatus}
    {results : List ThreadStatus}
    (clones : wifstopped st.status = true → st.status / 256 = StopEvent.clone.value → s.AllHeld)
    (inOrder : HardwareInOrder [] s) :
    HardwareInOrder [] (stateAfter (handleChange k u st results) s) := by
  rw [handleChange, stateAfter_modify_bind, stateAfter_get_bind]
  have changes := setForwardSignal_touches true s
  have before : HardwareInOrder [] (s.setForwardSignal true) := inOrder.frame changes (by decide)
  have exits (exitCode exitSignal : Option Nat) :
      Maintains (HardwareInOrder []) (handleExit st.tid exitCode exitSignal : Py K Unit) :=
    handleExit_keeps (fun _ _ _ => unregisterThread_inOrder_hardware _ _ _) _ _ _
  split
  · rename_i stopped
    split
    · exact before
    · have handled : HardwareInOrder [] (stateAfter (internalSignalHandler k u st.tid
          (wstopsig st.status) results st.status) (s.setForwardSignal true)) := by
        by_cases clone : st.status / 256 = StopEvent.clone.value
        · have allHeld := allHeld_frame inOrder.filed (clones stopped clone) changes (by decide)
          exact (internalSignalHandler_allHeld reads _ _ _ _ _ ⟨before, allHeld⟩).1
        · exact internalSignalHandler_inOrder_hardware clone _ before
      refine stateAfter_bind (fun e t raised => ?_) fun _ t returned => ?_
      · rwa [stateAfter_of_error raised] at handled
      · rw [stateAfter_of_ok returned] at handled
        exact handled.frame (handleStop_touches st _ t) (by decide)
  · split
    · exact exits _ _ _ before
    · split
      · exact exits _ _ _ before
      · exact before

theorem clonesHeld_inOrder (reads : ReadsUserArea k) {results rest : List ThreadStatus}
    (clones : s.ClonesHeld k u results rest) (inOrder : HardwareInOrder [] s) :
    HardwareInOrder [] (stateAfter (rest.forM fun st => handleChange k u st results) s) := by
  induction rest generalizing s with
  | nil => exact inOrder
  | cons st rest ih =>
      obtain ⟨held, later⟩ := clones
      have handled : HardwareInOrder [] (stateAfter (handleChange k u st results) s) :=
        handleChange_inOrder_hardware reads held inOrder
      refine stateAfter_bind (fun e t raised => ?_) fun _ t returned => ?_
      · rwa [stateAfter_of_error raised] at handled
      · rw [stateAfter_of_ok returned] at handled
        exact ih (later _ _ returned) handled

theorem wait_hardwareKept (reads : ReadsUserArea k) {fuel : Nat} (waits : s.WaitHeld k u fuel)
    (kept : HardwareKept s) : HardwareKept (stateAfter (wait k u fuel) s) := by
  refine kept.of_touches (wait_touches fuel) (by decide) ?_
  have collects : Maintains (HardwareInOrder []) (waitResults k fuel) := fun s inOrder =>
    inOrder.frame (waitResults_touches fuel s) (by decide)
  refine stateAfter_bind (fun e t raised => collects.of_error raised kept.inOrder)
    fun results t returned => ?_
  rw [stateAfter_modify_bind]
  have noted := (collects.of_ok returned kept.inOrder).frame
    (noteManaged_touches results t) (by decide)
  exact clonesHeld_inOrder reads (waits _ _ returned) noted

/-! ### Whole runs -/

theorem program_hardwareKept (reads : ReadsUserArea k) {command : Command}
    (keeps : KeepsHardware k u s command) (kept : HardwareKept s) :
    HardwareKept (stateAfter (command.program k u) s) := by
  cases command with
  | registerNewThread threadId =>
      refine kept.of_touches (registerNewThread_touches threadId) (by decide) ?_
      exact (registerNewThread_allHeld reads threadId s ⟨kept.inOrder, keeps⟩).1
  | setupParent fuel =>
      have started : HardwareKept
          { s with resumeContext := { s.resumeContext with isStartup := true } } :=
        ⟨⟨kept.inOrder.filed, fun helper member =>
          (kept.inOrder.faithful helper member).congr rfl rfl, kept.inOrder.uniform⟩, kept.agreed⟩
      have waited := wait_hardwareKept reads keeps started
      change HardwareKept (stateAfter (setupParent k u fuel) s)
      rw [setupParent, stateAfter_modify_bind]
      refine stateAfter_bind (fun e t raised => ?_) fun _ t returned => ?_
      · rwa [stateAfter_of_error raised] at waited
      · rw [stateAfter_of_ok returned] at waited
        exact ⟨⟨waited.inOrder.filed, fun helper member =>
          (waited.inOrder.faithful helper member).congr rfl rfl, waited.inOrder.uniform⟩,
          waited.agreed⟩
  | act action =>
      have touches : Touches _ (modify (·.perform action) : Py K Unit) :=
        Keeps.modify fun s => perform_changes s action
      exact touches.hardwareKept (by decide) s kept
  | breakpoint address symbol hardware condition length callback =>
      exact kept.of_touches (breakpoint_touches address symbol hardware condition length callback)
        (by decide) (breakpoint_inOrder_hardware reads kept.inOrder keeps)
  | handleSyscall number onEnter onExit recursive =>
      have maintains : Maintains HardwareKept
          (Command.program k u (.handleSyscall number onEnter onExit recursive)) :=
        ensureAlive_keeps.bind fun _ =>
          (putHandler_touches (F := ∅) number onEnter onExit recursive).hardwareKept (by decide)
      exact maintains s kept
  | catchSignal number callback recursive =>
      exact (catchSignal_touches (F := ∅) number callback recursive).hardwareKept (by decide) s kept
  | interrupt =>
      exact ⟨⟨kept.inOrder.filed, fun helper member =>
        (kept.inOrder.faithful helper member).congr rfl rfl, kept.inOrder.uniform⟩, kept.agreed⟩
  | cont =>
      obtain ⟨applies, apart⟩ := keeps
      obtain ⟨inOrder, snapshot, agrees, taken⟩ := cont_inOrder_hardware applies apart kept.inOrder
      refine ⟨inOrder, ?_⟩
      change ∀ snapshot ∈ (stateAfter (cont k) s).applied, snapshot.HardwareAgrees
      rw [taken]
      exact List.forall_mem_cons.mpr ⟨agrees, kept.agreed⟩
  | step threadId => exact (step_touches threadId).hardwareKept (by decide) s kept
  | stepUntil fuel threadId address maxSteps =>
      exact (stepUntil_touches fuel threadId address maxSteps).hardwareKept (by decide) s kept
  | finish fuel threadId heuristic returnAddress =>
      simp only [Command.program, finish]
      split
      · exact (finishStepMode_touches fuel threadId).hardwareKept (by decide) s kept
      · rw [if_neg keeps]
        exact kept
  | wait fuel =>
      have resumed := (setResume_touches (F := ∅) true).hardwareKept (by decide) s kept
      exact wait_hardwareKept reads keeps resumed

/-- In a run that keeps the managers in step, each holds every enabled hardware breakpoint
once and nothing else whenever `cont` has applied the changes. -/
theorem hardware_managers_agree (reads : ReadsUserArea k) {world : World K}
    {commands : List Command} {s : Debugger K}
    (keeps : (debugging k u).Meets (KeepsHardware k u) (.initial world) commands)
    (reached : (debugging k u).run (.initial world) commands = some s) :
    ∀ snapshot ∈ s.applied, snapshot.HardwareAgrees := by
  have initially : HardwareKept (Debugger.initial world) := by
    have nobody : (Debugger.initial world).hardwareBpHelpers.values = [] := rfl
    refine ⟨⟨?_, ?_, ?_⟩, ?_⟩
    · simp [Debugger.initial, Debugger.Filed]
    · simp [nobody]
    · simp [nobody]
    · simp [Debugger.initial]
  refine (Machine.run_invariant (fun s command next kept commanded stepped => ?_) initially keeps
    reached).agreed
  exact Debugger.stateAfter_of_command stepped ▸ program_hardwareKept reads commanded kept

/-- Two threads, of which nothing is reported. -/
def quiet : World Script := .nops { registers := fun _ => some fun _ => 0x1000 }

/-- A hardware breakpoint is created. -/
def createHardware (address : Nat) : Command := .breakpoint address "" true none 1 none

/-- A breakpoint that is switched off, and on again once that has been applied, is held
by the managers of both threads. -/
theorem hardware_managers_agree_toggled : ∃ s, (debugging scripted idle).run (.initial quiet)
    [.registerNewThread 1, createHardware 0x2000, .registerNewThread 2,
      .act (.disableBreakpoint 0), .cont, .act (.enableBreakpoint 0), .cont] = some s ∧
      ∀ snapshot ∈ s.applied, snapshot.HardwareAgrees := by
  obtain ⟨s, reached, -⟩ : ∃ s, (debugging scripted idle).run (.initial quiet)
      [.registerNewThread 1, createHardware 0x2000, .registerNewThread 2,
        .act (.disableBreakpoint 0), .cont, .act (.enableBreakpoint 0), .cont] = some s ∧ True :=
    Machine.exists_of_run (by decide +kernel)
  refine ⟨s, reached, hardware_managers_agree ?_ (by decide +kernel) reached⟩
  intro os threadId address
  exact rfl

/-- A breakpoint that is switched off and on again before `cont` is installed twice. -/
theorem toggled_installed_twice : ∃ s, (debugging scripted idle).run (.initial quiet)
    [.registerNewThread 1, createHardware 0x2000, .act (.disableBreakpoint 0),
      .act (.enableBreakpoint 0), .cont] = some s ∧
      ¬ ∀ snapshot ∈ s.applied, snapshot.HardwareAgrees :=
  Machine.exists_of_run (by decide +kernel)

end Libdebug.Ptrace
