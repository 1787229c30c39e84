import Libdebug.Ptrace.Footprints
import Libdebug.Ptrace.Managers

/-!
The dictionary of breakpoints, and what `cont` does before it resumes the process: it
collects the breakpoints that are marked as changed, and sets or unsets each.

Breakpoints are filed under their addresses, so no two are filed under one key, and no
breakpoint twice.
-/

namespace Libdebug.Ptrace

open Libdebug.Foundation Libdebug.Cffi

variable {K : Type}

/-- Breakpoints are filed under their addresses. -/
def Debugger.Filed (s : Debugger K) : Prop :=
  ∀ address bp, s.breakpoints.get? address = some bp →
    (s.objects bp).address = address ∧ bp < s.nextRef

/-- `cont` does not raise between forwarding the signals and resuming the process. -/
def Debugger.applies (k : Kernel K) (s : Debugger K) : Bool :=
  match (forwardSignals >>= fun _ => applyChanges k).run s with
  | .ok _ _ => true
  | .error _ _ => false

/-- The marks of the breakpoints are taken off. -/
def Debugger.settle (s : Debugger K) (bps : List Ref) : Debugger K :=
  { s with
    objects := fun bp =>
      if bp ∈ bps then { s.objects bp with disabledForStep := false, changed := false }
      else s.objects bp }

variable {k : Kernel K} {s t : Debugger K} {bp : Ref}

namespace Debugger.Filed

theorem address (filed : s.Filed) {bp : Ref} (member : bp ∈ s.breakpoints.values) :
    s.breakpoints.get? (s.objects bp).address = some bp := by
  obtain ⟨key, found⟩ := Dict.mem_values.mp member
  rwa [(filed key bp found).1]

theorem old (filed : s.Filed) {bp : Ref} (member : bp ∈ s.breakpoints.values) :
    bp < s.nextRef := by
  obtain ⟨key, found⟩ := Dict.mem_values.mp member
  exact (filed key bp found).2

theorem unique (filed : s.Filed) {bp other : Ref} (member : bp ∈ s.breakpoints.values)
    (otherMember : other ∈ s.breakpoints.values)
    (same : (s.objects other).address = (s.objects bp).address) : other = bp := by
  have found := filed.address member
  have foundOther := filed.address otherMember
  rw [same, found] at foundOther
  exact (Option.some.inj foundOther).symm

theorem nodup (filed : s.Filed) : s.breakpoints.values.Nodup := by
  have keyed : s.breakpoints.entries.map (fun e => (s.objects e.2).address) =
      s.breakpoints.entries.map Prod.fst :=
    List.map_congr_left fun e member => (filed e.1 e.2 (Dict.get?_eq_some.mpr member)).1
  have distinct := s.breakpoints.distinct
  rw [← keyed] at distinct
  refine List.Nodup.of_map (fun bp => (s.objects bp).address) ?_
  rwa [Dict.values, List.map_map]

/-- Only toggling breakpoints leaves them filed. -/
theorem frame (filed : s.Filed) {F : Finset Field} (changes : Changes Field.same F s t)
    (apart : .objects ∉ F ∧ .breakpoints ∉ F) : t.Filed := by
  have breakpoints : t.breakpoints = s.breakpoints := changes .breakpoints apart.2
  obtain ⟨grown, toggled⟩ : s.Toggles t := changes .objects apart.1
  intro address bp found
  rw [breakpoints] at found
  obtain ⟨at', old⟩ := filed address bp found
  exact ⟨(toggled bp old).1.1.trans at', old.trans_le grown⟩

/-- A new breakpoint is filed under its address, in the place of another. -/
theorem set (filed : s.Filed) {bp : Ref} (old : bp < s.nextRef)
    (breakpoints : t.breakpoints = s.breakpoints.set (s.objects bp).address bp)
    (objects : t.objects = s.objects) (nextRef : t.nextRef = s.nextRef) : t.Filed := by
  intro address other found
  rw [breakpoints, Dict.get?_set] at found
  rw [objects, nextRef]
  split at found
  · rename_i same
    cases found
    exact ⟨same.symm, old⟩
  · exact filed address other found

end Debugger.Filed

/-! ### New breakpoint objects -/

/-- The state after a breakpoint object has been made. -/
theorem newBreakpoint_object (object : Breakpoint) (s : Debugger K) :
    ((stateAfter (newBreakpoint object) s).objects s.nextRef) = object :=
  Function.update_self ..

theorem run_newBreakpoint (object : Breakpoint) (s : Debugger K) :
    (newBreakpoint object).run s = .ok s.nextRef (stateAfter (newBreakpoint object) s) := rfl

/-- The breakpoints there are stay as they are. -/
theorem newBreakpoint_others (object : Breakpoint) {s : Debugger K} (filed : s.Filed) {bp : Ref}
    {address : Nat} (found : s.breakpoints.get? address = some bp) :
    (stateAfter (newBreakpoint object) s).objects bp = s.objects bp :=
  Function.update_of_ne (filed address bp found).2.ne ..

/-! ### Placing a breakpoint -/

theorem placeBreakpoint_onlyManagers (hardware : (s.objects bp).hardware = true) (insert : Bool) :
    OnlyManagers s (stateAfter (placeBreakpoint k bp insert) s) := by
  rw [placeBreakpoint, stateAfter_get_bind, if_pos hardware]
  exact Keeps.forM (fun threadId _ => installBreakpoint_onlyManagers threadId bp) s

theorem displaceBreakpoint_onlyManagers (hardware : (s.objects bp).hardware = true)
    (delete : Bool) :
    OnlyManagers s (stateAfter (displaceBreakpoint k bp delete) s) := by
  rw [displaceBreakpoint, stateAfter_get_bind, if_pos hardware]
  exact Keeps.forM (fun threadId _ => removeBreakpoint_onlyManagers threadId bp) s

/-! ### Collecting what has changed -/

theorem callLib?_ok {f : GlobalState → World K → Option (GlobalState × World K)}
    (returned : (callLib? f).run s = .ok () t) :
    ∃ g w, f s.globalState s.world = some (g, w) ∧ t = s.withLib g w := by
  obtain ⟨_, _, read, returned⟩ := ok_of_bind returned
  cases read
  split at returned
  · rename_i g w called
    cases returned
    exact ⟨g, w, called, rfl⟩
  · cases returned

theorem settle_cons (s : Debugger K) (bp : Ref) (rest : List Ref) :
    (s.updateBreakpoint bp ({ · with disabledForStep := false, changed := false })).settle rest =
      s.settle (bp :: rest) := by
  simp only [Debugger.settle, Debugger.updateBreakpoint]
  congr 1
  funext other
  by_cases same : other = bp
  · subst same
    simp
  · simp [same]

theorem collectChanged_run {bps : List Ref} (distinct : bps.Nodup) (s : Debugger K) :
    (collectChanged bps).run s =
      .ok (bps.filter fun bp => (s.objects bp).changed) (s.settle bps) := by
  induction bps generalizing s with
  | nil =>
      have same : s.settle [] = s := by simp [Debugger.settle]
      rw [same]
      rfl
  | cons bp rest ih =>
      obtain ⟨absent, distinct⟩ := List.nodup_cons.mp distinct
      set next := s.updateBreakpoint bp ({ · with disabledForStep := false, changed := false })
        with marked
      have others : rest.filter (fun other => (next.objects other).changed) =
          rest.filter fun other => (s.objects other).changed := by
        refine List.filter_congr fun other member => ?_
        have different : other ≠ bp := fun same => absent (same ▸ member)
        simp [marked, Debugger.updateBreakpoint, different]
      have settled : next.settle rest = s.settle (bp :: rest) := settle_cons s bp rest
      have later := ih distinct next
      rw [others, settled] at later
      simp only [collectChanged, EStateM.run_bind, EStateM.run_get, EStateM.run_modify, ← marked,
        later, EStateM.run_pure, List.filter_cons]

/-- Every marked breakpoint is applied, its mark taken off before. -/
theorem applyChanges_ok (filed : s.Filed) (returned : (applyChanges k).run s = .ok () t) :
    ((s.breakpoints.values.filter fun bp => (s.objects bp).changed).forM (applyChange k)).run
      (s.settle s.breakpoints.values) = .ok () t := by
  obtain ⟨_, _, read, returned⟩ := ok_of_bind returned
  cases read
  obtain ⟨changed, settled, collected, returned⟩ := ok_of_bind returned
  rw [collectChanged_run filed.nodup] at collected
  cases collected
  exact returned

/-- Forwarding signals leaves the breakpoints and the managers alone. -/
theorem forwardSignals_leaves : Leaves
    (fun s : Debugger K => (s.objects, s.nextRef, s.breakpoints, s.hardwareBpHelpers, s.applied))
    forwardSignals := by
  refine Keeps.get.bind fun s => Keeps.ite (fun _ => ?_) fun _ => Keeps.pure _
  refine Keeps.get.bind fun t => Keeps.bind (Keeps.forM fun node _ => ?_) fun _ => fun _ => rfl
  refine Keeps.get.bind fun s => Keeps.ite (fun _ => ?_) fun _ => Keeps.pure _
  split
  · exact Keeps.throw _
  · exact Keeps.ite (fun _ => Keeps.modify fun _ => rfl) fun _ => Keeps.pure _

/-- A `cont` that does not raise before it resumes the process takes down what the tables
are once the changes have been applied. -/
theorem cont_applied (applies : s.applies k = true) :
    ∃ forwarded t : Debugger K, forwardSignals.run s = .ok () forwarded ∧
      (applyChanges k).run forwarded = .ok () t ∧
      (stateAfter (cont k) s).applied = t.snapshot :: t.applied ∧
      Changes Field.same {.nodes, .injections, .applied} t (stateAfter (cont k) s) := by
  unfold Debugger.applies at applies
  split at applies
  · rename_i t returned
    obtain ⟨_, forwarded, first, second⟩ := ok_of_bind returned
    have ended : stateAfter (cont k) s = stateAfter (do
        let result ← callLib (contAllAndSetBps k)
        raiseErrnoIf k (result < 0))
        { t with
          applied := t.snapshot :: t.applied
          globalState := { t.globalState with
            handleSyscallEnabled := handleSyscallEnabled t.handledSyscalls.values } } := by
      rw [cont, stateAfter_bind_ok first, stateAfter_bind_ok second]
      rfl
    have last : Touches {.nodes, .injections} (do
        let result ← callLib (contAllAndSetBps k)
        raiseErrnoIf k (result < 0)) :=
      (touches_callLib contAllAndSetBps_changes).bind fun _ => raiseErrnoIf_touches _
    refine ⟨forwarded, t, first, second, ?_, ?_⟩
    · rw [ended]
      exact last _ .applied (by decide)
    · rw [ended]
      refine trans_of (Changes Field.same _) (fun field outside => ?_)
        ((last _).mono (by decide))
      cases field with
      | applied => simp at outside
      | objects => exact refl_of Debugger.Toggles t
      | _ => rfl
  · cases applies

end Libdebug.Ptrace
