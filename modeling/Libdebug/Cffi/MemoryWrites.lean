import Libdebug.Cffi.Armed
import Mathlib.Data.Finset.Max

/-!
Whether a byte that is written beside a breakpoint keeps its value.

Arming and restoring write whole words that were captured when the breakpoints were
registered. Besides its own byte each word covers seven bytes above, and puts back
what they held then. The table is in address order, so the breakpoint nearest below a
byte has the last word on it, and what it captured decides.
-/

namespace Libdebug.Cffi

open Libdebug.Foundation

variable {K : Type} {k : Kernel K} {pid : Int} {g : GlobalState} {x : Nat} {b : SoftwareBreakpoint}

/-- Of the breakpoints that are switched on and whose words cover the byte, the one at
the highest address. -/
structure GlobalState.NearestBelow (g : GlobalState) (x : Nat) (b : SoftwareBreakpoint) : Prop where
  member : b ∈ g.bHead
  enabled : b.enabled = true
  covers : Covers b.addr x
  nearest : ∀ other ∈ g.bHead, other.enabled = true → Covers other.addr x → other.addr ≤ b.addr

/-- What the byte holds is changed neither by arming nor by restoring the breakpoints,
and is read at the next stop unless the tracee writes there in between. -/
structure WriteSurvives (g : GlobalState) (w : World K) (x : Nat) : Prop where
  arming : (armBreakpoints g w).mem x = w.mem x
  restoring : (restoreBreakpoints g w).mem x = w.mem x
  readBack : ∀ later : World K, later.mem x = (armBreakpoints g w).mem x →
    (restoreBreakpoints g later).mem x = w.mem x

/-! ### The two loops on one byte -/

/-- A byte that no enabled breakpoint covers has none nearest below it. -/
theorem exists_nearestBelow (covered : ∃ b ∈ g.bHead, b.enabled = true ∧ Covers b.addr x) :
    ∃ b, g.NearestBelow x b := by
  classical
  obtain ⟨first, member, enabled, covers⟩ := covered
  set covering := (g.bHead.filter fun b => b.enabled = true ∧ Covers b.addr x).toFinset
  have nonempty : covering.Nonempty :=
    ⟨first, List.mem_toFinset.mpr (List.mem_filter.mpr ⟨member, by simp [enabled, covers]⟩)⟩
  obtain ⟨b, there, highest⟩ := covering.exists_max_image (·.addr) nonempty
  obtain ⟨inTable, holds⟩ := List.mem_filter.mp (List.mem_toFinset.mp there)
  obtain ⟨on, covers⟩ : b.enabled = true ∧ Covers b.addr x := by simpa using holds
  refine ⟨b, inTable, on, covers, ?_⟩
  intro other otherMember otherOn otherCovers
  apply highest other
  exact List.mem_toFinset.mpr (List.mem_filter.mpr ⟨otherMember, by simp [otherOn, otherCovers]⟩)

/-- One word is written for each enabled breakpoint, in address order. -/
theorem pairwise_words (increasing : Increasing g.bHead) (word : SoftwareBreakpoint → Word) :
    ((g.bHead.filter (·.enabled)).map fun b => (b.addr, word b)).Pairwise
      fun first second => first.1 < second.1 :=
  List.pairwise_map.mpr (increasing.sublist List.filter_sublist)

/-- The nearest breakpoint below a byte decides what it holds after a loop that writes
one word for each. -/
theorem GlobalState.NearestBelow.pokeAll (below : g.NearestBelow x b)
    (increasing : Increasing g.bHead) (word : SoftwareBreakpoint → Word) (memory : Memory) :
    Foundation.pokeAll ((g.bHead.filter (·.enabled)).map fun b => (b.addr, word b)) memory x =
      byteOf (word b) (x - b.addr) := by
  apply pokeAll_nearest (pairwise_words increasing word) _ below.covers
  · rintro _ written covered
    obtain ⟨other, member, rfl⟩ := List.mem_map.mp written
    obtain ⟨inTable, on⟩ := List.mem_filter.mp member
    exact below.nearest other inTable on covered
  · exact List.mem_map_of_mem (List.mem_filter.mpr ⟨below.member, below.enabled⟩)

theorem GlobalState.NearestBelow.armed (below : g.NearestBelow x b)
    (increasing : Increasing g.bHead) (other : x ∉ g.enabledAddrs) (w : World K) :
    (armBreakpoints g w).mem x = byteOf b.instruction (x - b.addr) := by
  obtain ⟨above, within⟩ := below.covers
  have different : x ≠ b.addr := by
    rintro rfl
    exact other (mem_enabledAddrs.mpr ⟨b, below.member, below.enabled, rfl⟩)
  rw [armBreakpoints_eq, ← byteOf_installBreakpoint_succ b.instruction (by omega) (by omega),
    ← b.patched]
  exact below.pokeAll increasing (·.patchedInstruction) w.mem

theorem GlobalState.NearestBelow.restored (below : g.NearestBelow x b)
    (increasing : Increasing g.bHead) (w : World K) :
    (restoreBreakpoints g w).mem x = byteOf b.instruction (x - b.addr) := by
  rw [restoreBreakpoints_eq]
  exact below.pokeAll increasing (·.instruction) w.mem

/-- A byte that no enabled breakpoint covers is written by neither loop. -/
theorem pokeAll_uncovered (uncovered : ¬ ∃ b ∈ g.bHead, b.enabled = true ∧ Covers b.addr x)
    (word : SoftwareBreakpoint → Word) (memory : Memory) :
    pokeAll ((g.bHead.filter (·.enabled)).map fun b => (b.addr, word b)) memory x = memory x := by
  apply pokeAll_outside
  rintro _ written covered
  obtain ⟨b, member, rfl⟩ := List.mem_map.mp written
  obtain ⟨inTable, on⟩ := List.mem_filter.mp member
  exact uncovered ⟨b, inTable, on, covered⟩

theorem armBreakpoints_congr {w later : World K} (same : later.mem x = w.mem x) :
    (armBreakpoints g later).mem x = (armBreakpoints g w).mem x := by
  rw [armBreakpoints_eq, armBreakpoints_eq]
  exact pokeAll_congr same

theorem restoreBreakpoints_congr {w later : World K} (same : later.mem x = w.mem x) :
    (restoreBreakpoints g later).mem x = (restoreBreakpoints g w).mem x := by
  rw [restoreBreakpoints_eq, restoreBreakpoints_eq]
  exact pokeAll_congr same

/-- What neither loop changes is read back. -/
theorem WriteSurvives.of_loops {w : World K} (arming : (armBreakpoints g w).mem x = w.mem x)
    (restoring : (restoreBreakpoints g w).mem x = w.mem x) : WriteSurvives g w x where
  arming := arming
  restoring := restoring
  readBack _ same := (restoreBreakpoints_congr (same.trans arming)).trans restoring

theorem writeSurvives_uncovered (uncovered : ¬ ∃ b ∈ g.bHead, b.enabled = true ∧ Covers b.addr x)
    (w : World K) : WriteSurvives g w x := by
  apply WriteSurvives.of_loops
  · rw [armBreakpoints_eq]
    exact pokeAll_uncovered uncovered _ _
  · rw [restoreBreakpoints_eq]
    exact pokeAll_uncovered uncovered _ _

/-! ### Whole rounds and runs -/

/-- A byte that survives is read back once the process has been resumed and stopped. -/
theorem WriteSurvives.read_back (keeps : k.KeepsText {x}) {w : World K}
    (survives : WriteSurvives g w x) {result : Int} {resumed : GlobalState} {running : World K}
    (continued : contAllAndSetBps k g w = (result, resumed, running)) {fuel : Nat}
    {list : List ThreadStatus} {stopped : GlobalState} {later : World K}
    (collected : waitAllAndUpdateRegs k fuel resumed running pid =
      (.statuses list, stopped, later)) :
    later.mem x = w.mem x := by
  obtain ⟨prepared, performed, ended⟩ := prepareForRun_spec (k := k) g w
  have before : prepared.mem x = w.mem x := performed.text keeps x rfl
  have resumes := (resumeLoop_performs g.handleSyscallEnabled g.tHead g
    (prepareForRun k g w).2).text keeps x rfl
  obtain ⟨g', w', waited, done⟩ := waitAllAndUpdateRegs_spec (k := k) fuel resumed running pid
  have between : w'.mem x = running.mem x := waited.text keeps x rfl
  cases continued
  have table : g'.bHead = g.bHead := waited.bHead
  rcases done with done | done | ⟨_, done⟩ <;> rw [done] at collected <;> cases collected
  have sameLoop : restoreBreakpoints stopped w' = restoreBreakpoints g w' := by
    simp only [restoreBreakpoints, table]
  have stays : w'.mem x = (prepareForRun k g w).2.mem x := between.trans resumes
  have same : w'.mem x = w.mem x := by
    rcases ended with gaveUp | ⟨status, -, armed⟩
    · rw [stays, gaveUp, before]
    · rw [stays, armed]
      exact (armBreakpoints_congr before).trans survives.arming
  calc (restoreBreakpoints stopped w').mem x
    _ = (restoreBreakpoints g w').mem x := by rw [sameLoop]
    _ = (restoreBreakpoints g w).mem x := restoreBreakpoints_congr same
    _ = w.mem x := survives.restoring

/-- Whatever calls were made since the table was empty, a byte that is not the address of
an enabled breakpoint keeps what is written there exactly if the nearest breakpoint below,
if there is one, has captured the same value. -/
theorem written_byte_survives_iff {s₀ s : Session K} {calls : List Call} (start : s₀.g.bHead = [])
    (reached : (session k pid).run s₀ calls = some s) (other : x ∉ s.g.enabledAddrs)
    (w : World K) :
    WriteSurvives s.g w x ↔
      ∀ b, s.g.NearestBelow x b → byteOf b.instruction (x - b.addr) = w.mem x := by
  have increasing := session_increasing start reached
  constructor
  · intro survives b below
    rw [← below.restored increasing w]
    exact survives.restoring
  · intro captured
    by_cases covered : ∃ b ∈ s.g.bHead, b.enabled = true ∧ Covers b.addr x
    · obtain ⟨b, below⟩ := exists_nearestBelow covered
      have same := captured b below
      apply WriteSurvives.of_loops
      · rw [below.armed increasing other, same]
      · rw [below.restored increasing, same]
    · exact writeSurvives_uncovered covered w

/-- The eighth byte above a breakpoint is its own. -/
theorem written_byte_survives_beyond :
    ∃ s, (session scripted 1).run (.initial (.nops { registers := fun _ => none }))
        [.registerThread 1, .registerBreakpoint 0x1000] = some s ∧
      ∀ w : World Script, WriteSurvives s.g w 0x1008 := by
  have reached : (session scripted 1).run (.initial (.nops { registers := fun _ => none }))
      [.registerThread 1, .registerBreakpoint 0x1000] = some _ := rfl
  refine ⟨_, reached, fun w => ?_⟩
  rw [written_byte_survives_iff rfl reached (by decide) w]
  rintro b below
  have only := List.mem_singleton.mp below.member
  have covers := below.covers
  rw [only] at covers
  exact absurd covers (by decide)

/-- The byte right above a breakpoint is written back as it was when that was registered. -/
theorem written_byte_lost :
    ∃ s, (session scripted 1).run (.initial (.nops
          { registers := fun _ => none, reports := [some ⟨1, 0x057f, .singleStep⟩, none] }))
        [.registerThread 1, .registerBreakpoint 0x1000, .contAllAndSetBps, .waitAllAndUpdateRegs 1,
          .ptracePokedata 0x1001 0x41#64] = some s ∧
      0x1001 ∉ s.g.enabledAddrs ∧ s.w.mem 0x1001 = 0x41#8 ∧ ¬ WriteSurvives s.g s.w 0x1001 := by
  refine ⟨_, rfl, by decide, by decide, ?_⟩
  intro survives
  exact absurd survives.arming (by decide)

end Libdebug.Cffi
