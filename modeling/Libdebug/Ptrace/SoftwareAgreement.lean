import Libdebug.Ptrace.Tables

/-!
Whether the table of the C layer and the dictionary of breakpoints agree on software
breakpoints.

A breakpoint is registered when it is created, and switched when `cont` finds it marked
as changed. Two paths miss one of the sides: a hardware breakpoint that takes the place
of a software one leaves the entry of that one in the table, and `finish` switches an
entry on without the flag of the breakpoint. Where neither is taken, and `cont` does not
raise half-way, the two agree each time `cont` has applied the changes.
-/

namespace Libdebug.Ptrace

open Libdebug.Foundation Libdebug.Cffi

variable {K : Type} (k : Kernel K) (u : UserCode K)

/-- The entries of the table are the software breakpoints, with the same flags. -/
def Snapshot.SoftwareAgrees (snapshot : Snapshot) : Prop :=
  (∀ entry ∈ snapshot.entries, entry ∈ snapshot.software) ∧
    ∀ entry ∈ snapshot.software, entry ∈ snapshot.entries

instance (snapshot : Snapshot) : Decidable snapshot.SoftwareAgrees :=
  inferInstanceAs (Decidable (_ ∧ _))

/-- No hardware breakpoint is created in the place of a software one, `finish` finds no
software breakpoint that is switched off for good, and changes are applied to the end. -/
def KeepsSoftware (s : Debugger K) : Command → Prop
  | .breakpoint address _ hardware _ _ _ =>
      hardware = true → ∀ bp ∈ s.breakpoints.get? address, (s.objects bp).hardware = true
  | .cont => s.applies k = true
  | .finish _ threadId heuristic (some returnAddress) =>
      heuristic = "backtrace" →
        (∀ bp ∈ s.breakpoints.get? returnAddress, (s.objects bp).hardware = true ∨
          (s.objects bp).enabled = true ∨ (s.objects bp).changed = true) ∧
        Returning (prepareFinish k threadId returnAddress) (fun _ t => t.applies k = true) s
  | _ => True

instance : DecidableRel (KeepsSoftware k) := fun s command =>
  match command with
  | .breakpoint .. | .cont | .finish _ _ _ (some _) | .finish _ _ _ none | .registerNewThread _
  | .setupParent _ | .act _ | .handleSyscall .. | .catchSignal .. | .interrupt | .step _
  | .stepUntil .. | .wait _ => by
      unfold KeepsSoftware
      infer_instance

variable {k u} {s t : Debugger K} {pending rest : List Ref} {address : Nat} {bp : Ref}

/-- The two sides agree, but for the flags of breakpoints that are marked as changed or
still to be applied. -/
structure SoftwareInOrder (pending : List Ref) (s : Debugger K) : Prop where
  filed : s.Filed
  increasing : Increasing s.globalState.bHead
  listed : ∀ address, (∃ b ∈ s.globalState.bHead, b.addr = address) ↔
    ∃ bp, s.breakpoints.get? address = some bp ∧ (s.objects bp).hardware = false
  flags : ∀ bp ∈ s.breakpoints.values, (s.objects bp).hardware = false →
    (s.objects bp).changed = false → bp ∉ pending →
      ∀ b ∈ s.globalState.bHead, b.addr = (s.objects bp).address →
        b.enabled = (s.objects bp).enabled

namespace SoftwareInOrder

/-- The fields the invariant is about. -/
theorem frame (inOrder : SoftwareInOrder pending s) {F : Finset Field}
    (changes : Changes Field.same F s t)
    (apart : .table ∉ F ∧ .objects ∉ F ∧ .breakpoints ∉ F) : SoftwareInOrder pending t := by
  have table : t.globalState.bHead = s.globalState.bHead := changes .table apart.1
  have breakpoints : t.breakpoints = s.breakpoints := changes .breakpoints apart.2.2
  obtain ⟨grown, toggled⟩ : s.Toggles t := changes .objects apart.2.1
  have kind {bp : Ref} {address : Nat} (found : s.breakpoints.get? address = some bp) :
      (t.objects bp).hardware = (s.objects bp).hardware :=
    (toggled bp (inOrder.filed address bp found).2).1.2.1
  refine ⟨inOrder.filed.frame changes apart.2, table ▸ inOrder.increasing, fun address => ?_, ?_⟩
  · rw [table, breakpoints, inOrder.listed address]
    refine exists_congr fun bp => and_congr_right fun found => ?_
    rw [kind found]
  · intro bp member software unchanged applied b inTable same
    rw [breakpoints] at member
    rw [table] at inTable
    obtain ⟨⟨sameAddress, sameKind, -⟩, flags⟩ := toggled bp (inOrder.filed.old member)
    obtain ⟨flag, mark⟩ := flags.resolve_right (by simp [unchanged])
    rw [flag]
    exact inOrder.flags bp member (sameKind ▸ software) (mark ▸ unchanged) applied b inTable
      (same.trans sameAddress)

/-- The table and the dictionary change at one address. -/
theorem rewrite {flag : Option Bool} (inOrder : SoftwareInOrder pending s)
    (table : TableAt address flag s.globalState.bHead t.globalState.bHead) (filed : t.Filed)
    (others : ∀ other, other ≠ address → t.breakpoints.get? other = s.breakpoints.get? other)
    (objects : t.objects = s.objects)
    (listed : flag.isSome ↔
      ∃ bp, t.breakpoints.get? address = some bp ∧ (t.objects bp).hardware = false)
    (agrees : ∀ bp, t.breakpoints.get? address = some bp → (t.objects bp).hardware = false →
      (t.objects bp).changed = false → bp ∉ rest → flag = some (t.objects bp).enabled)
    (done : ∀ bp ∈ pending, bp ∉ rest → (t.objects bp).address = address) :
    SoftwareInOrder rest t := by
  refine ⟨filed, table.increasing, fun other => ?_, fun bp member software unchanged applied b
    inTable same => ?_⟩
  · by_cases here : other = address
    · subst here
      rw [← listed]
      refine ⟨fun ⟨b, inTable, same⟩ => ?_, table.present⟩
      rw [table.here b inTable same]
      rfl
    · rw [others other here, objects, ← inOrder.listed other]
      refine exists_congr fun b => and_congr_left fun same => table.others b ?_
      rw [same]
      exact here
  · have found := filed.address member
    by_cases here : (t.objects bp).address = address
    · rw [here] at found same
      have agreed := agrees bp found software unchanged applied
      rw [table.here b inTable same] at agreed
      exact Option.some.inj agreed
    · rw [others _ here] at found
      have notPending : bp ∉ pending := fun waiting => here (done bp waiting applied)
      rw [objects] at found software unchanged same here ⊢
      refine inOrder.flags bp (Dict.mem_values.mpr ⟨_, found⟩) software unchanged
        notPending b ?_ same
      exact (table.others b (same ▸ here)).mp inTable

/-- With the marks off and nothing left to apply the tables agree. -/
theorem agrees (inOrder : SoftwareInOrder [] s)
    (settled : ∀ bp ∈ s.breakpoints.values, (s.objects bp).changed = false) :
    s.snapshot.SoftwareAgrees := by
  constructor
  · intro entry member
    obtain ⟨b, inTable, rfl⟩ := List.mem_map.mp member
    obtain ⟨bp, found, software⟩ := (inOrder.listed b.addr).mp ⟨b, inTable, rfl⟩
    have filed : bp ∈ s.breakpoints.values := Dict.mem_values.mpr ⟨_, found⟩
    have sameAddress := (inOrder.filed _ _ found).1
    have flag := inOrder.flags bp filed software (settled bp filed) List.not_mem_nil b inTable
      sameAddress.symm
    refine List.mem_map.mpr ⟨s.objects bp, List.mem_filter.mpr ⟨List.mem_map_of_mem filed, ?_⟩, ?_⟩
    · simp [software]
    · rw [sameAddress, flag]
  · intro entry member
    obtain ⟨object, filtered, rfl⟩ := List.mem_map.mp member
    obtain ⟨mapped, kind⟩ := List.mem_filter.mp filtered
    obtain ⟨bp, filed, rfl⟩ := List.mem_map.mp mapped
    have software : (s.objects bp).hardware = false := by simpa using kind
    obtain ⟨b, inTable, same⟩ :=
      (inOrder.listed _).mpr ⟨bp, inOrder.filed.address filed, software⟩
    have flag := inOrder.flags bp filed software (settled bp filed) List.not_mem_nil b inTable same
    exact List.mem_map.mpr ⟨b, inTable, by rw [same, flag]⟩

end SoftwareInOrder

/-- Nothing is entered at the address, and nothing is changed there. -/
theorem tableAt_absent {bHead : List SoftwareBreakpoint} (increasing : Increasing bHead)
    (absent : ∀ b ∈ bHead, b.addr ≠ address) : TableAt address none bHead bHead where
  increasing := increasing
  others _ _ := Iff.rfl
  here b member same := absurd same (absent b member)
  present none := by simp at none

/-! ### Creating a breakpoint -/

/-- Installing or removing a breakpoint in managers changes nothing here. -/
theorem SoftwareInOrder.onlyManagers (inOrder : SoftwareInOrder pending s)
    (only : OnlyManagers s t) : SoftwareInOrder pending t := by
  obtain ⟨os, helpers, rfl⟩ := only
  exact ⟨inOrder.filed, inOrder.increasing, inOrder.listed, inOrder.flags⟩

/-- A dictionary that is set at the address of the breakpoint. -/
theorem SoftwareInOrder.insert (inOrder : SoftwareInOrder [] s) (old : bp < s.nextRef)
    (on : (s.objects bp).enabled = true)
    (table : TableAt (s.objects bp).address
      (if (s.objects bp).hardware then none else some true) s.globalState.bHead t.globalState.bHead)
    (breakpoints : t.breakpoints = s.breakpoints.set (s.objects bp).address bp)
    (objects : t.objects = s.objects) (nextRef : t.nextRef = s.nextRef) : SoftwareInOrder [] t := by
  have here : t.breakpoints.get? (s.objects bp).address = some bp := by
    rw [breakpoints, Dict.get?_set, if_pos rfl]
  refine inOrder.rewrite table (inOrder.filed.set old breakpoints objects nextRef)
    (fun other different => ?_) objects ?_ (fun other found software _ _ => ?_) (by simp)
  · rw [breakpoints, Dict.get?_set, if_neg different]
  · rw [objects]
    constructor
    · intro entered
      refine ⟨bp, here, ?_⟩
      by_contra hardware
      simp [hardware] at entered
    · rintro ⟨other, found, software⟩
      rw [here] at found
      cases found
      simp [software]
  · rw [here] at found
    cases found
    rw [objects] at software ⊢
    rw [on, software]
    rfl

/-- A hardware breakpoint does not take the place of a software one. -/
def NoSoftwareAt (s : Debugger K) (address : Nat) : Prop :=
  ∀ bp, s.breakpoints.get? address = some bp → (s.objects bp).hardware = true

theorem SoftwareInOrder.absent (inOrder : SoftwareInOrder pending s)
    (apart : NoSoftwareAt s address) : ∀ b ∈ s.globalState.bHead, b.addr ≠ address := by
  intro b inTable same
  obtain ⟨bp, found, software⟩ := (inOrder.listed address).mp ⟨b, inTable, same⟩
  simp [apart bp found] at software

theorem setBreakpoint_insert (inOrder : SoftwareInOrder [] s) (old : bp < s.nextRef)
    (on : (s.objects bp).enabled = true)
    (apart : (s.objects bp).hardware = true → NoSoftwareAt s (s.objects bp).address) :
    SoftwareInOrder [] (stateAfter (setBreakpoint k bp true) s) := by
  by_cases hardware : (s.objects bp).hardware = true
  · have installs := placeBreakpoint_onlyManagers (k := k) hardware true
    have placed := inOrder.onlyManagers installs
    refine stateAfter_bind (fun e r raised => ?_) fun _ r returned => ?_
    · rwa [stateAfter_of_error raised] at placed
    · rw [stateAfter_of_ok returned] at installs
      obtain ⟨os, helpers, rfl⟩ := installs
      refine inOrder.insert old on ?_ rfl rfl rfl
      rw [hardware]
      exact tableAt_absent inOrder.increasing (inOrder.absent (apart hardware))
  · have software : (s.objects bp).hardware = false := Bool.eq_false_of_not_eq_true hardware
    have registers : (placeBreakpoint k bp true).run s = .ok () (s.withLib
        (registerBreakpoint s.globalState s.world (s.objects bp).address).1
        (registerBreakpoint s.globalState s.world (s.objects bp).address).2) := by
      simp only [placeBreakpoint, EStateM.run_bind, EStateM.run_get, software]
      rfl
    rw [setBreakpoint, stateAfter_bind_ok registers]
    refine inOrder.insert old on ?_ rfl rfl rfl
    rw [software]
    exact tableAt_registerBreakpoint inOrder.increasing s.world (s.objects bp).address

/-! ### Applying the changes -/

/-- The entry of a software breakpoint is switched to the flag of the breakpoint. -/
theorem SoftwareInOrder.switch (inOrder : SoftwareInOrder (bp :: rest) s)
    (member : bp ∈ s.breakpoints.values) (software : (s.objects bp).hardware = false)
    {g : GlobalState} {w : World K}
    (table : TableAt (s.objects bp).address (some (s.objects bp).enabled)
      s.globalState.bHead g.bHead) :
    SoftwareInOrder rest (s.withLib g w) := by
  have here := inOrder.filed.address member
  refine inOrder.rewrite table inOrder.filed (fun _ _ => rfl) rfl ?_ (fun other found _ _ _ => ?_)
    fun other waiting applied => ?_
  · exact iff_of_true rfl ⟨bp, here, software⟩
  · have same : other = bp := Option.some.inj (found.symm.trans here)
    rw [same]
    rfl
  · rw [(List.mem_cons.mp waiting).resolve_right applied]
    rfl

/-- A hardware breakpoint has no entry to be switched. -/
theorem SoftwareInOrder.skip (inOrder : SoftwareInOrder (bp :: rest) s)
    (hardware : (s.objects bp).hardware = true) : SoftwareInOrder rest s :=
  ⟨inOrder.filed, inOrder.increasing, inOrder.listed, fun other member software unchanged applied =>
    inOrder.flags other member software unchanged fun waiting => by
      rcases List.mem_cons.mp waiting with rfl | later
      · simp [hardware] at software
      · exact applied later⟩

/-- While the changes are applied the breakpoints stay as they were when it began. -/
structure Applying (start : Debugger K) (rest : List Ref) (s : Debugger K) : Prop where
  inOrder : SoftwareInOrder rest s
  objects : s.objects = start.objects
  breakpoints : s.breakpoints = start.breakpoints
  nextRef : s.nextRef = start.nextRef
  applied : s.applied = start.applied
  filed : ∀ bp ∈ rest, bp ∈ start.breakpoints.values

namespace Applying

variable {start : Debugger K}

theorem of_withLib (applying : Applying start (bp :: rest) s) {g : GlobalState} {w : World K}
    (inOrder : SoftwareInOrder rest (s.withLib g w)) : Applying start rest (s.withLib g w) :=
  ⟨inOrder, applying.objects, applying.breakpoints, applying.nextRef, applying.applied,
    fun other member => applying.filed other (List.mem_cons_of_mem _ member)⟩

theorem of_onlyManagers (applying : Applying start (bp :: rest) s)
    (hardware : (s.objects bp).hardware = true) (only : OnlyManagers s t) :
    Applying start rest t := by
  have inOrder := (applying.inOrder.skip hardware).onlyManagers only
  obtain ⟨os, helpers, rfl⟩ := only
  exact ⟨inOrder, applying.objects, applying.breakpoints, applying.nextRef, applying.applied,
    fun other member => applying.filed other (List.mem_cons_of_mem _ member)⟩

theorem applyChange (applying : Applying start (bp :: rest) s)
    (returned : (applyChange k bp).run s = .ok () t) : Applying start rest t := by
  have member : bp ∈ s.breakpoints.values :=
    applying.breakpoints ▸ applying.filed bp List.mem_cons_self
  obtain ⟨_, _, read, returned⟩ := ok_of_bind returned
  cases read
  by_cases hardware : (s.objects bp).hardware = true
  · refine applying.of_onlyManagers hardware ?_
    split at returned
    · obtain ⟨_, _, placed, returned⟩ := ok_of_bind returned
      cases returned
      exact stateAfter_of_ok placed ▸ placeBreakpoint_onlyManagers hardware false
    · obtain ⟨_, _, displaced, returned⟩ := ok_of_bind returned
      cases returned
      exact stateAfter_of_ok displaced ▸ displaceBreakpoint_onlyManagers hardware false
  · have software := Bool.eq_false_of_not_eq_true hardware
    obtain ⟨b, inTable, there⟩ := (applying.inOrder.listed _).mpr
      ⟨bp, applying.inOrder.filed.address member, software⟩
    have increasing := applying.inOrder.increasing
    split at returned
    · rename_i on
      obtain ⟨_, _, placed, returned⟩ := ok_of_bind returned
      cases returned
      obtain ⟨_, _, read, placed⟩ := ok_of_bind placed
      cases read
      rw [if_neg hardware, if_neg Bool.false_ne_true] at placed
      obtain ⟨_, _, read, placed⟩ := ok_of_bind placed
      cases read
      obtain ⟨g, w, switched, rfl⟩ := callLib?_ok placed
      refine applying.of_withLib (applying.inOrder.switch member software ?_)
      rcases enableBreakpoint_cases switched with ⟨absent, -, -⟩ | ⟨entry, found, rfl, -⟩
      · exact absurd there (findEntry_none.mp absent b inTable)
      · rw [on]
        exact tableAt_setEnabled increasing found true
    · rename_i off
      obtain ⟨_, _, displaced, returned⟩ := ok_of_bind returned
      cases returned
      obtain ⟨_, _, read, displaced⟩ := ok_of_bind displaced
      cases read
      rw [if_neg hardware, if_neg Bool.false_ne_true] at displaced
      obtain ⟨_, _, read, displaced⟩ := ok_of_bind displaced
      cases read
      obtain ⟨g, w, switched, rfl⟩ := callLib?_ok displaced
      refine applying.of_withLib (applying.inOrder.switch member software ?_)
      rcases disableBreakpoint_cases switched with ⟨absent, -, -⟩ | ⟨entry, found, rfl, -⟩
      · exact absurd there (findEntry_none.mp absent b inTable)
      · rw [Bool.eq_false_of_not_eq_true off]
        exact tableAt_setEnabled increasing found false

end Applying

theorem SoftwareInOrder.settle (inOrder : SoftwareInOrder [] s) :
    SoftwareInOrder (s.breakpoints.values.filter fun bp => (s.objects bp).changed)
      (s.settle s.breakpoints.values) := by
  have same (bp : Ref) : ((s.settle s.breakpoints.values).objects bp).address =
      (s.objects bp).address ∧ ((s.settle s.breakpoints.values).objects bp).hardware =
      (s.objects bp).hardware ∧ ((s.settle s.breakpoints.values).objects bp).enabled =
      (s.objects bp).enabled := by
    simp only [Debugger.settle]
    split <;> exact ⟨rfl, rfl, rfl⟩
  refine ⟨fun address bp found => ?_, inOrder.increasing, fun address => ?_, ?_⟩
  · rw [(same bp).1]
    exact inOrder.filed address bp found
  · refine (inOrder.listed address).trans (exists_congr fun bp => and_congr_right fun _ => ?_)
    rw [(same bp).2.1]
  · intro bp member software _ unlisted b inTable there
    rw [(same bp).2.1] at software
    rw [(same bp).1] at there
    rw [(same bp).2.2]
    refine inOrder.flags bp member software ?_ List.not_mem_nil b inTable there
    by_contra changed
    exact unlisted (List.mem_filter.mpr ⟨member, by simpa using changed⟩)

/-- What stays of the breakpoints when only flags change. -/
structure SameBreakpoints (s t : Debugger K) : Prop where
  breakpoints : t.breakpoints = s.breakpoints
  nextRef : s.nextRef ≤ t.nextRef
  kinds : ∀ bp < s.nextRef, (t.objects bp).address = (s.objects bp).address ∧
    (t.objects bp).hardware = (s.objects bp).hardware

theorem SameBreakpoints.of_changes {F : Finset Field} (changes : Changes Field.same F s t)
    (apart : .objects ∉ F ∧ .breakpoints ∉ F) : SameBreakpoints s t := by
  obtain ⟨grown, toggled⟩ : s.Toggles t := changes .objects apart.1
  exact ⟨changes .breakpoints apart.2, grown,
    fun bp old => ⟨(toggled bp old).1.1, (toggled bp old).1.2.1⟩⟩

theorem SameBreakpoints.trans {r : Debugger K} (first : SameBreakpoints s r)
    (second : SameBreakpoints r t) : SameBreakpoints s t where
  breakpoints := second.breakpoints.trans first.breakpoints
  nextRef := first.nextRef.trans second.nextRef
  kinds bp old :=
    ⟨(second.kinds bp (old.trans_le first.nextRef)).1.trans (first.kinds bp old).1,
      (second.kinds bp (old.trans_le first.nextRef)).2.trans (first.kinds bp old).2⟩

/-- Changes that are applied to the end make the tables agree. -/
theorem cont_inOrder_software (applies : s.applies k = true) (inOrder : SoftwareInOrder [] s) :
    SoftwareInOrder [] (stateAfter (cont k) s) ∧ SameBreakpoints s (stateAfter (cont k) s) ∧
      ∃ snapshot : Snapshot, snapshot.SoftwareAgrees ∧
        (stateAfter (cont k) s).applied = snapshot :: s.applied := by
  obtain ⟨forwarded, t, first, second, taken, last⟩ := cont_applied applies
  have left := forwardSignals_leaves.of_ok first
  simp only [Same, Prod.mk.injEq] at left
  obtain ⟨objects, nextRef, breakpoints, -, applied⟩ := left
  have before := inOrder.frame (forwardSignals_touches.of_ok first) (by decide)
  have start : Applying (forwarded.settle forwarded.breakpoints.values)
      (forwarded.breakpoints.values.filter fun bp => (forwarded.objects bp).changed)
      (forwarded.settle forwarded.breakpoints.values) :=
    ⟨before.settle, rfl, rfl, rfl, rfl, fun bp member => (List.mem_filter.mp member).1⟩
  have ended := forM_ok (fun _ _ _ _ applying returned => applying.applyChange returned) start
    (applyChanges_ok before.filed second)
  have settled : ∀ bp ∈ t.breakpoints.values, (t.objects bp).changed = false := by
    intro bp member
    rw [ended.breakpoints] at member
    rw [ended.objects]
    have known : bp ∈ forwarded.breakpoints.values := member
    simp [Debugger.settle, known]
  refine ⟨ended.inOrder.frame last (by decide), ?_, t.snapshot, ended.inOrder.agrees settled, ?_⟩
  · have upToHere : SameBreakpoints s t := by
      refine ⟨ended.breakpoints.trans breakpoints, ?_, fun bp _ => ?_⟩
      · rw [ended.nextRef]
        exact nextRef.ge
      · rw [ended.objects]
        simp only [Debugger.settle, objects]
        split <;> exact ⟨rfl, rfl⟩
    exact upToHere.trans (SameBreakpoints.of_changes last (by decide))
  · rw [taken, ended.applied]
    exact congrArg (t.snapshot :: ·) applied

/-! ### Deleting a breakpoint -/

theorem SoftwareInOrder.erase (inOrder : SoftwareInOrder [] s)
    (table : TableAt address none s.globalState.bHead t.globalState.bHead)
    (breakpoints : t.breakpoints = s.breakpoints.erase address) (objects : t.objects = s.objects)
    (nextRef : t.nextRef = s.nextRef) : SoftwareInOrder [] t := by
  have gone : t.breakpoints.get? address = none := by
    rw [breakpoints, Dict.get?_erase, if_pos rfl]
  refine inOrder.rewrite table (fun other bp found => ?_) (fun other different => ?_) objects ?_
    (fun bp found => ?_) (by simp)
  · rw [breakpoints, Dict.get?_erase] at found
    split at found
    · cases found
    · rw [objects, nextRef]
      exact inOrder.filed other bp found
  · rw [breakpoints, Dict.get?_erase, if_neg different]
  · simp [gone]
  · simp [gone] at found

/-- The breakpoint is deleted from both sides. -/
theorem unsetBreakpoint_delete (inOrder : SoftwareInOrder [] s)
    (here : s.breakpoints.get? (s.objects bp).address = some bp) :
    SoftwareInOrder [] (stateAfter (unsetBreakpoint k bp true) s) := by
  have listed : (s.objects bp).address ∈ s.breakpoints.keys := Dict.mem_keys.mpr ⟨bp, here⟩
  by_cases hardware : (s.objects bp).hardware = true
  · have displaces := displaceBreakpoint_onlyManagers (k := k) hardware true
    have displaced := inOrder.onlyManagers displaces
    refine stateAfter_bind (fun e r raised => ?_) fun _ r returned => ?_
    · rwa [stateAfter_of_error raised] at displaced
    · rw [stateAfter_of_ok returned] at displaces
      obtain ⟨os, helpers, rfl⟩ := displaces
      have apart : NoSoftwareAt s (s.objects bp).address := fun other found => by
        rw [here] at found
        cases found
        exact hardware
      have deletes : stateAfter (deleteBreakpoint bp) (s.withHelpers os helpers) =
          { s.withHelpers os helpers with
            breakpoints := s.breakpoints.erase (s.objects bp).address } := by
        rw [deleteBreakpoint, stateAfter_get_bind]
        exact congrArg (stateAfter · _) (if_pos listed)
      rw [if_pos rfl, deletes]
      exact inOrder.erase (tableAt_absent inOrder.increasing (inOrder.absent apart)) rfl rfl rfl
  · have unregisters : (displaceBreakpoint k bp true).run s = .ok ()
        (s.withLib (unregisterBreakpoint s.globalState (s.objects bp).address) s.world) := by
      simp only [displaceBreakpoint, EStateM.run_bind, EStateM.run_get, hardware]
      rfl
    have deletes : stateAfter (deleteBreakpoint bp)
        (s.withLib (unregisterBreakpoint s.globalState (s.objects bp).address) s.world) =
        { s.withLib (unregisterBreakpoint s.globalState (s.objects bp).address) s.world with
          breakpoints := s.breakpoints.erase (s.objects bp).address } := by
      rw [deleteBreakpoint, stateAfter_get_bind]
      exact congrArg (stateAfter · _) (if_pos listed)
    rw [unsetBreakpoint, stateAfter_bind_ok unregisters, if_pos rfl, deletes]
    exact inOrder.erase (tableAt_removeEntry inOrder.increasing _) rfl rfl rfl

/-! ### Finishing a function -/

theorem newBreakpoint_inOrder (inOrder : SoftwareInOrder [] s) (object : Breakpoint) :
    SoftwareInOrder [] (stateAfter (newBreakpoint object) s) :=
  inOrder.frame (newBreakpoint_touches (F := ∅) object s) (by decide)

/-- A breakpoint that is made and set, unless a hardware one takes the place of a software one. -/
theorem createBreakpoint_inOrder (inOrder : SoftwareInOrder [] s) (object : Breakpoint)
    (on : object.enabled = true)
    (apart : object.hardware = true → NoSoftwareAt s object.address) :
    SoftwareInOrder []
      (stateAfter (setBreakpoint k s.nextRef true) (stateAfter (newBreakpoint object) s)) := by
  refine setBreakpoint_insert (newBreakpoint_inOrder inOrder object) (Nat.lt_succ_self _) ?_ ?_ <;>
    rw [newBreakpoint_object]
  · exact on
  · intro hardware bp found
    rw [newBreakpoint_others object inOrder.filed found]
    exact apart hardware bp found

/-- A software breakpoint that is found has the flag of its entry already, or is marked. -/
theorem reuseBreakpoint_inOrder (inOrder : SoftwareInOrder [] s)
    (member : bp ∈ s.breakpoints.values)
    (marked : (s.objects bp).hardware = true ∨ (s.objects bp).enabled = true ∨
      (s.objects bp).changed = true) :
    SoftwareInOrder [] (stateAfter (reuseBreakpoint bp) s) := by
  rw [reuseBreakpoint, stateAfter_get_bind]
  split
  · rename_i off
    rw [enableBreakpoint, stateAfter_get_bind, callLib?, stateAfter_get_bind]
    split
    · rename_i g w switched
      rw [stateAfter_modify]
      rcases enableBreakpoint_cases switched with ⟨-, rfl, rfl⟩ | ⟨entry, found, rfl, rfl⟩
      · exact inOrder
      · obtain ⟨inTable, there⟩ := findEntry_some found
        have here := inOrder.filed.address member
        obtain ⟨other, foundOther, software⟩ := (inOrder.listed _).mp ⟨entry, inTable, there⟩
        rw [here] at foundOther
        cases foundOther
        have changed : (s.objects bp).changed = true := by simp_all
        refine inOrder.rewrite (tableAt_setEnabled inOrder.increasing found true) inOrder.filed
          (fun _ _ => rfl) rfl ?_ (fun other foundOther _ unchanged _ => ?_) (by simp)
        · exact iff_of_true rfl ⟨bp, here, software⟩
        · have same : other = bp := Option.some.inj (foundOther.symm.trans here)
          rw [same] at unchanged
          exact absurd changed (by simpa using unchanged)
    · exact inOrder
  · exact inOrder

/-- A breakpoint that has been inserted is found under its address. -/
theorem setBreakpoint_found (returned : (setBreakpoint k bp true).run s = .ok () t) :
    t.breakpoints.get? (t.objects bp).address = some bp := by
  obtain ⟨_, _, placed, returned⟩ := ok_of_bind returned
  cases returned
  simp only [Dict.get?_set, if_pos]

theorem setReturnBreakpoint_inOrder (inOrder : SoftwareInOrder [] s) (threadId : Int)
    {returnAddress : Nat} (nobody : s.breakpoints.get? returnAddress = none) :
    SoftwareInOrder [] (stateAfter (setReturnBreakpoint k threadId returnAddress) s) := by
  refine stateAfter_bind (fun e r raised => ?_) fun available r returned => ?_
  · exact inOrder.frame ((availableBreakpoints_touches (F := ∅) threadId).of_error raised)
      (by decide)
  · obtain rfl := availableBreakpoints_ok returned
    rw [stateAfter_bind_ok (run_newBreakpoint _ _)]
    have created := createBreakpoint_inOrder (k := k) inOrder
      { address := returnAddress, hardware := available > 0 } rfl
      fun _ bp found => by simp [nobody] at found
    refine stateAfter_bind (fun e r raised => ?_) fun _ r returned => ?_
    · rwa [stateAfter_of_error raised] at created
    · rwa [stateAfter_of_ok returned] at created

theorem setReturnBreakpoint_found {threadId : Int} {returnAddress : Nat}
    (returned : (setReturnBreakpoint k threadId returnAddress).run s = .ok bp t) :
    t.breakpoints.get? (t.objects bp).address = some bp := by
  obtain ⟨_, _, _, returned⟩ := ok_of_bind returned
  obtain ⟨_, _, _, returned⟩ := ok_of_bind returned
  obtain ⟨_, _, set, returned⟩ := ok_of_bind returned
  cases returned
  exact setBreakpoint_found set

theorem prepareFinish_inOrder (inOrder : SoftwareInOrder [] s) (threadId : Int)
    {returnAddress : Nat}
    (marked : ∀ bp ∈ s.breakpoints.get? returnAddress, (s.objects bp).hardware = true ∨
      (s.objects bp).enabled = true ∨ (s.objects bp).changed = true) :
    SoftwareInOrder [] (stateAfter (prepareFinish k threadId returnAddress) s) := by
  rw [prepareFinish, stateAfter_get_bind]
  split
  · rename_i bp found
    have member := List.mem_of_find?_eq_some found
    have address : (s.objects bp).address = returnAddress := by simpa using List.find?_some found
    have reused := reuseBreakpoint_inOrder inOrder member
      (marked bp (address ▸ inOrder.filed.address member))
    refine stateAfter_bind (fun e r raised => ?_) fun _ r returned => ?_
    · rwa [stateAfter_of_error raised] at reused
    · rwa [stateAfter_of_ok returned] at reused
  · rename_i absent
    have nobody : s.breakpoints.get? returnAddress = none := by
      rw [Option.eq_none_iff_forall_ne_some]
      intro bp found
      refine absurd (inOrder.filed _ bp found).1 ?_
      simpa using List.find?_eq_none.mp absent bp (Dict.mem_values.mpr ⟨_, found⟩)
    have set := setReturnBreakpoint_inOrder (k := k) inOrder threadId nobody
    refine stateAfter_bind (fun e r raised => ?_) fun bp r returned => ?_
    · rwa [stateAfter_of_error raised] at set
    · rwa [stateAfter_of_ok returned] at set

/-- The breakpoint that `finish` is going to delete is in its place. -/
theorem prepareFinish_found {threadId : Int} {returnAddress : Nat}
    (returned : (prepareFinish k threadId returnAddress).run s = .ok (bp, false) t) :
    t.breakpoints.get? (t.objects bp).address = some bp := by
  obtain ⟨_, _, read, returned⟩ := ok_of_bind returned
  cases read
  split at returned
  · obtain ⟨_, _, _, returned⟩ := ok_of_bind returned
    cases returned
  · obtain ⟨_, _, set, returned⟩ := ok_of_bind returned
    cases returned
    exact setReturnBreakpoint_found set

/-! ### Commands -/

/-- Between two commands, with what has been taken down so far. -/
structure SoftwareKept (s : Debugger K) : Prop where
  inOrder : SoftwareInOrder [] s
  agreed : ∀ snapshot ∈ s.applied, snapshot.SoftwareAgrees

theorem Touches.softwareKept {α : Type} {F : Finset Field} {p : Py K α} (touches : Touches F p)
    (apart : (.table ∉ F ∧ .objects ∉ F ∧ .breakpoints ∉ F) ∧ .applied ∉ F) :
    Maintains SoftwareKept p := by
  intro s kept
  have applied : (stateAfter p s).applied = s.applied := touches s .applied apart.2
  exact ⟨kept.inOrder.frame (touches s) apart.1, applied ▸ kept.agreed⟩

theorem cont_softwareKept (applies : s.applies k = true) (kept : SoftwareKept s) :
    SoftwareKept (stateAfter (cont k) s) := by
  obtain ⟨inOrder, -, snapshot, agrees, taken⟩ := cont_inOrder_software applies kept.inOrder
  refine ⟨inOrder, ?_⟩
  rw [taken]
  exact List.forall_mem_cons.mpr ⟨agrees, kept.agreed⟩

theorem SoftwareKept.of_touches {α : Type} {F : Finset Field} {p : Py K α} (kept : SoftwareKept s)
    (touches : Touches F p) (apart : .applied ∉ F) (inOrder : SoftwareInOrder [] (stateAfter p s)) :
    SoftwareKept (stateAfter p s) := by
  have applied : (stateAfter p s).applied = s.applied := touches s .applied apart
  exact ⟨inOrder, applied ▸ kept.agreed⟩

theorem breakpoint_inOrder (inOrder : SoftwareInOrder [] s) {symbol : String} {hardware : Bool}
    {condition : Option String} {length : Nat} {callback : Option Callback}
    (apart : hardware = true → NoSoftwareAt s address) : SoftwareInOrder []
      (stateAfter (breakpoint k address symbol hardware condition length callback) s) := by
  refine stateAfter_bind (fun e r raised => ?_) fun _ r alive => ?_
  · obtain rfl : r = s := ensureAlive_keeps.of_error (R := Same id) raised
    exact inOrder
  · obtain rfl : r = s := ensureAlive_keeps.of_ok (R := Same id) alive
    refine stateAfter_bind (fun e q raised => ?_) fun _ q checked => ?_
    · obtain rfl : q = r := (checkCondition_keeps _ _ _).of_error (R := Same id) raised
      exact inOrder
    · obtain rfl : q = r := (checkCondition_keeps _ _ _).of_ok (R := Same id) checked
      dsimp only
      rw [stateAfter_bind_ok (run_newBreakpoint _ _)]
      have created := createBreakpoint_inOrder (k := k) inOrder
        { address, symbol, hardware, callback, length,
          condition :=
            if hardware ∧ (condition = none ∨ condition = some "") then some "x" else condition }
        rfl apart
      refine stateAfter_bind (fun e r raised => ?_) fun _ r returned => ?_
      · rwa [stateAfter_of_error raised] at created
      · rw [stateAfter_of_ok returned] at created
        rw [confirmInserted, stateAfter_get_bind]
        split <;> exact created

theorem finishBacktrace_softwareKept (kept : SoftwareKept s) {fuel : Nat} {threadId : Int}
    {returnAddress : Nat}
    (marked : ∀ bp ∈ s.breakpoints.get? returnAddress, (s.objects bp).hardware = true ∨
      (s.objects bp).enabled = true ∨ (s.objects bp).changed = true)
    (applies : Returning (prepareFinish k threadId returnAddress)
      (fun _ t => t.applies k = true) s) :
    SoftwareKept (stateAfter (finishBacktrace k u fuel threadId returnAddress) s) := by
  have prepared := kept.of_touches (prepareFinish_touches (k := k) threadId returnAddress)
    (by decide) (prepareFinish_inOrder kept.inOrder threadId marked)
  refine stateAfter_bind (fun e t raised => ?_) fun ⟨bp, wasFound⟩ t returned => ?_
  · rwa [stateAfter_of_error raised] at prepared
  · rw [stateAfter_of_ok returned] at prepared
    have continued := cont_softwareKept (applies _ _ returned) prepared
    have same := (cont_inOrder_software (applies _ _ returned) prepared.inOrder).2.1
    refine stateAfter_bind (fun e r raised => ?_) fun _ r resumed => ?_
    · rwa [stateAfter_of_error raised] at continued
    · rw [stateAfter_of_ok resumed] at continued same
      have waits := wait_touches (k := k) (u := u) fuel
      have waited := waits.softwareKept (by decide) r continued
      refine stateAfter_bind (fun e q raised => ?_) fun _ q ended => ?_
      · rwa [stateAfter_of_error raised] at waited
      · rw [stateAfter_of_ok ended] at waited
        have since := same.trans (SameBreakpoints.of_changes (waits.of_ok ended) (by decide))
        cases wasFound with
        | true => exact waited
        | false =>
            have here := prepareFinish_found returned
            have kinds := since.kinds bp (prepared.inOrder.filed _ _ here).2
            refine waited.of_touches (unsetBreakpoint_touches bp true) (by decide) ?_
            refine unsetBreakpoint_delete waited.inOrder ?_
            rw [since.breakpoints, kinds.1]
            exact here

theorem program_softwareKept {command : Command} (keeps : KeepsSoftware k s command)
    (kept : SoftwareKept s) : SoftwareKept (stateAfter (command.program k u) s) := by
  cases command with
  | registerNewThread threadId =>
      exact (registerNewThread_touches threadId).softwareKept (by decide) s kept
  | setupParent fuel =>
      have maintains : Maintains SoftwareKept (setupParent k u fuel) :=
        Keeps.bind (Keeps.modify fun s kept => ⟨⟨kept.inOrder.filed, kept.inOrder.increasing,
          kept.inOrder.listed, kept.inOrder.flags⟩, kept.agreed⟩) fun _ =>
          ((wait_touches fuel).softwareKept (by decide)).bind fun _ =>
            Keeps.modify fun s kept => ⟨⟨kept.inOrder.filed, kept.inOrder.increasing,
              kept.inOrder.listed, kept.inOrder.flags⟩, kept.agreed⟩
      exact maintains s kept
  | act action =>
      have touches : Touches _ (modify (·.perform action) : Py K Unit) :=
        Keeps.modify fun s => perform_changes s action
      exact touches.softwareKept (by decide) s kept
  | breakpoint address symbol hardware condition length callback =>
      exact kept.of_touches (breakpoint_touches address symbol hardware condition length callback)
        (by decide) (breakpoint_inOrder kept.inOrder keeps)
  | handleSyscall number onEnter onExit recursive =>
      have maintains : Maintains SoftwareKept
          (Command.program k u (.handleSyscall number onEnter onExit recursive)) :=
        ensureAlive_keeps.bind fun _ =>
          (putHandler_touches (F := ∅) number onEnter onExit recursive).softwareKept (by decide)
      exact maintains s kept
  | catchSignal number callback recursive =>
      exact (catchSignal_touches (F := ∅) number callback recursive).softwareKept (by decide) s kept
  | interrupt =>
      exact ⟨⟨kept.inOrder.filed, kept.inOrder.increasing, kept.inOrder.listed, kept.inOrder.flags⟩,
        kept.agreed⟩
  | cont => exact cont_softwareKept keeps kept
  | step threadId => exact (step_touches threadId).softwareKept (by decide) s kept
  | stepUntil fuel threadId address maxSteps =>
      exact (stepUntil_touches fuel threadId address maxSteps).softwareKept (by decide) s kept
  | finish fuel threadId heuristic returnAddress =>
      simp only [Command.program, finish]
      split
      · exact (finishStepMode_touches fuel threadId).softwareKept (by decide) s kept
      · split
        · rename_i backtrace
          cases returnAddress with
          | none => exact kept
          | some returnAddress =>
              obtain ⟨marked, applies⟩ := keeps backtrace
              exact finishBacktrace_softwareKept kept marked applies
        · exact kept
  | wait fuel =>
      have maintains : Maintains SoftwareKept (Command.program k u (.wait fuel)) :=
        ((setResume_touches (F := ∅) true).softwareKept (by decide)).bind fun _ =>
          (wait_touches fuel).softwareKept (by decide)
      exact maintains s kept

/-! ### Whole runs -/

/-- In a run that keeps software breakpoints on both sides, the tables agree each time
`cont` has applied the changes. -/
theorem software_tables_agree {world : World K} {commands : List Command} {s : Debugger K}
    (keeps : (debugging k u).Meets (KeepsSoftware k) (.initial world) commands)
    (reached : (debugging k u).run (.initial world) commands = some s) :
    ∀ snapshot ∈ s.applied, snapshot.SoftwareAgrees := by
  have initially : SoftwareKept (Debugger.initial world) := by
    refine ⟨⟨?_, List.Pairwise.nil, ?_, ?_⟩, ?_⟩ <;>
      simp [Debugger.initial, Debugger.Filed, GlobalState.empty]
  refine (Machine.run_invariant (fun s command next kept commanded stepped => ?_) initially keeps
    reached).agreed
  exact Debugger.stateAfter_of_command stepped ▸ program_softwareKept commanded kept

/-- Thread 1 at `0x1000`, of which nothing is reported. -/
def silent : World Script := .nops { registers := fun _ => some fun _ => 0x1000 }

/-- A software breakpoint is created. -/
def createSoftware (address : Nat) : Command := .breakpoint address "" false none 1 none

/-- Switching a breakpoint off and replacing it by one that is on keeps the tables in step. -/
theorem software_tables_agree_replaced : ∃ s, (debugging scripted idle).run (.initial silent)
    [.registerNewThread 1, createSoftware 0x2000, .act (.disableBreakpoint 0), .cont,
      createSoftware 0x2000, .cont] = some s ∧
      ∀ snapshot ∈ s.applied, snapshot.SoftwareAgrees := by
  obtain ⟨s, reached, -⟩ : ∃ s, (debugging scripted idle).run (.initial silent)
      [.registerNewThread 1, createSoftware 0x2000, .act (.disableBreakpoint 0), .cont,
        createSoftware 0x2000, .cont] = some s ∧ True :=
    Machine.exists_of_run (by decide +kernel)
  exact ⟨s, reached, software_tables_agree (by decide +kernel) reached⟩

/-- `finish` switches on the entry of a breakpoint that stays off in the dictionary. -/
theorem finish_splits_tables : ∃ s, (debugging scripted idle).run (.initial silent)
    [.registerNewThread 1, createSoftware 0x2000, .act (.disableBreakpoint 0), .cont,
      .finish 2 1 "backtrace" (some 0x2000)] = some s ∧
      ¬ ∀ snapshot ∈ s.applied, snapshot.SoftwareAgrees :=
  Machine.exists_of_run (by decide +kernel)

end Libdebug.Ptrace
