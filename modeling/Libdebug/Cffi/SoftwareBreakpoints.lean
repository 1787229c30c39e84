import Libdebug.Cffi.Kernel

/-!
The table of software breakpoints, `b_HEAD`: registration, removal, switching on
and off. Registration and switching patch the tracee's memory at once; a saved
word is captured from memory when its breakpoint is first registered.
-/

namespace Libdebug.Cffi

open Libdebug.Foundation

/-- The trap byte. -/
def int3 : Byte := 0xCC#8

/-- The two masks of `INSTALL_BREAKPOINT`, bit by bit. -/
private theorem mask_bits : ∀ i < 64,
    (0xFFFFFFFFFFFFFF00#64).getLsbD i = decide (8 ≤ i) ∧
      (0xCC#64).getLsbD i = int3.getLsbD i := by
  decide

theorem byteOf_installBreakpoint_zero (instruction : Word) :
    byteOf (installBreakpoint instruction) 0 = int3 := by
  ext i bit
  obtain ⟨cleared, set⟩ := mask_bits i (by omega)
  have low : ¬ 8 ≤ i := by omega
  simp [byteOf, installBreakpoint, cleared, set, low, bit, ← BitVec.getLsbD_eq_getElem]

theorem byteOf_installBreakpoint_succ (instruction : Word) {k : Nat} (later : 0 < k)
    (inside : k < 8) : byteOf (installBreakpoint instruction) k = byteOf instruction k := by
  ext i bit
  obtain ⟨kept, unset⟩ := mask_bits (8 * k + i) (by omega)
  have beyond : 8 ≤ 8 * k + i := by omega
  simp [byteOf, installBreakpoint, kept, unset, bit, beyond, ← BitVec.getLsbD_eq_getElem]

/-- The linked-list insertion of `register_breakpoint` after its head test:
`next` is skipped while its address is smaller. -/
def insertAfter (b : SoftwareBreakpoint) : List SoftwareBreakpoint → List SoftwareBreakpoint
  | [] => [b]
  | next :: rest => if next.addr < b.addr then next :: insertAfter b rest else b :: next :: rest

/-- Breakpoints are inserted ordered by address, increasing. -/
def insertBreakpoint (b : SoftwareBreakpoint) : List SoftwareBreakpoint → List SoftwareBreakpoint
  | [] => [b]
  | head :: rest => if head.addr > b.addr then b :: head :: rest else head :: insertAfter b rest

/-- Set the flag of the first entry at `address`. -/
def setEnabled (address : Nat) (enabled : Bool) :
    List SoftwareBreakpoint → List SoftwareBreakpoint
  | [] => []
  | b :: rest =>
      if b.addr = address then { b with enabled } :: rest
      else b :: setEnabled address enabled rest

/-- Unlink the first entry at `address`. -/
def removeEntry (address : Nat) : List SoftwareBreakpoint → List SoftwareBreakpoint
  | [] => []
  | b :: rest => if b.addr = address then rest else b :: removeEntry address rest

def findEntry (address : Nat) (bHead : List SoftwareBreakpoint) : Option SoftwareBreakpoint :=
  bHead.find? (·.addr = address)

/-! ### The table operations -/

section Table

variable {address : Nat} {b entry : SoftwareBreakpoint} {bHead : List SoftwareBreakpoint}

theorem findEntry_none : findEntry address bHead = none ↔ ∀ b ∈ bHead, b.addr ≠ address := by
  simp [findEntry]

theorem findEntry_some (found : findEntry address bHead = some b) :
    b ∈ bHead ∧ b.addr = address :=
  ⟨List.mem_of_find?_eq_some found, by simpa using List.find?_some found⟩

theorem mem_insertAfter : entry ∈ insertAfter b bHead ↔ entry = b ∨ entry ∈ bHead := by
  induction bHead with
  | nil => simp [insertAfter]
  | cons next rest ih =>
      simp only [insertAfter]
      split
      · rw [List.mem_cons, ih, List.mem_cons]
        tauto
      · simp

theorem mem_insertBreakpoint : entry ∈ insertBreakpoint b bHead ↔ entry = b ∨ entry ∈ bHead := by
  cases bHead with
  | nil => simp [insertBreakpoint]
  | cons head rest =>
      simp only [insertBreakpoint]
      split
      · simp
      · rw [List.mem_cons, mem_insertAfter, List.mem_cons]
        tauto

/-- The addresses increase strictly along the list. -/
def Increasing (bHead : List SoftwareBreakpoint) : Prop :=
  bHead.Pairwise fun b next => b.addr < next.addr

theorem increasing_iff : Increasing bHead ↔ (bHead.map (·.addr)).Pairwise (· < ·) :=
  List.pairwise_map.symm

theorem increasing_insertAfter (increasing : Increasing bHead)
    (fresh : ∀ entry ∈ bHead, entry.addr ≠ b.addr) : Increasing (insertAfter b bHead) := by
  induction bHead with
  | nil => exact List.pairwise_singleton _ _
  | cons next rest ih =>
      obtain ⟨below, sorted⟩ := List.pairwise_cons.mp increasing
      obtain ⟨freshNext, freshRest⟩ := List.forall_mem_cons.mp fresh
      simp only [insertAfter]
      split
      · rename_i smaller
        refine List.pairwise_cons.mpr ⟨fun entry member => ?_, ih sorted freshRest⟩
        rcases mem_insertAfter.mp member with rfl | old
        · exact smaller
        · exact below entry old
      · rename_i notSmaller
        have bound : b.addr < next.addr := by omega
        refine List.pairwise_cons.mpr ⟨fun entry member => ?_, increasing⟩
        rcases List.mem_cons.mp member with rfl | old
        · exact bound
        · exact Nat.lt_trans bound (below entry old)

theorem increasing_insertBreakpoint (increasing : Increasing bHead)
    (fresh : findEntry b.addr bHead = none) : Increasing (insertBreakpoint b bHead) := by
  have fresh := findEntry_none.mp fresh
  cases bHead with
  | nil => exact List.pairwise_singleton _ _
  | cons head rest =>
      obtain ⟨below, sorted⟩ := List.pairwise_cons.mp increasing
      obtain ⟨freshHead, freshRest⟩ := List.forall_mem_cons.mp fresh
      simp only [insertBreakpoint]
      split
      · rename_i smaller
        refine List.pairwise_cons.mpr ⟨fun entry member => ?_, increasing⟩
        rcases List.mem_cons.mp member with rfl | old
        · exact smaller
        · exact Nat.lt_trans smaller (below entry old)
      · rename_i notSmaller
        refine List.pairwise_cons.mpr ⟨fun entry member => ?_,
          increasing_insertAfter sorted freshRest⟩
        rcases mem_insertAfter.mp member with rfl | old
        · omega
        · exact below entry old

theorem map_addr_setEnabled (address : Nat) (enabled : Bool) (bHead : List SoftwareBreakpoint) :
    (setEnabled address enabled bHead).map (·.addr) = bHead.map (·.addr) := by
  induction bHead with
  | nil => rfl
  | cons b rest ih =>
      simp only [setEnabled]
      split <;> simp [ih]

/-- Switching an entry leaves the saved words alone. -/
theorem mem_setEnabled {enabled : Bool} (member : entry ∈ setEnabled address enabled bHead) :
    ∃ b ∈ bHead, b.addr = entry.addr ∧ b.instruction = entry.instruction := by
  induction bHead with
  | nil => simp [setEnabled] at member
  | cons b rest ih =>
      simp only [setEnabled] at member
      split at member
      · rcases List.mem_cons.mp member with rfl | old
        · exact ⟨b, List.mem_cons_self, rfl, rfl⟩
        · exact ⟨entry, List.mem_cons_of_mem _ old, rfl, rfl⟩
      · rcases List.mem_cons.mp member with rfl | old
        · exact ⟨entry, List.mem_cons_self, rfl, rfl⟩
        · obtain ⟨b, inside, same⟩ := ih old
          exact ⟨b, List.mem_cons_of_mem _ inside, same⟩

theorem forall_setEnabled {enabled : Bool} {P : Nat → Word → Prop}
    (holds : ∀ b ∈ bHead, P b.addr b.instruction) :
    ∀ b ∈ setEnabled address enabled bHead, P b.addr b.instruction := by
  intro entry member
  obtain ⟨b, inTable, sameAddr, sameWord⟩ := mem_setEnabled member
  rw [← sameAddr, ← sameWord]
  exact holds b inTable

/-- Switching the entry at one address leaves the entries at every other one. -/
theorem mem_setEnabled_other {enabled : Bool} (other : entry.addr ≠ address)
    (member : entry ∈ bHead) : entry ∈ setEnabled address enabled bHead := by
  induction bHead with
  | nil => simp at member
  | cons b rest ih =>
      simp only [setEnabled]
      split <;> rcases List.mem_cons.mp member with rfl | old
      · rename_i same
        exact absurd same other
      · exact List.mem_cons_of_mem _ old
      · exact List.mem_cons_self
      · exact List.mem_cons_of_mem _ (ih old)

theorem mem_setEnabled_self {enabled : Bool} (found : findEntry address bHead = some b) :
    { b with enabled } ∈ setEnabled address enabled bHead := by
  induction bHead with
  | nil => simp [findEntry] at found
  | cons head rest ih =>
      simp only [setEnabled]
      split
      · rename_i same
        have : head = b := by simpa [findEntry, same] using found
        subst this
        exact List.mem_cons_self
      · rename_i other
        exact List.mem_cons_of_mem _ (ih (by simpa [findEntry, other] using found))

theorem increasing_setEnabled (enabled : Bool) (increasing : Increasing bHead) :
    Increasing (setEnabled address enabled bHead) := by
  rw [increasing_iff] at increasing ⊢
  rwa [map_addr_setEnabled]

theorem removeEntry_sublist (address : Nat) (bHead : List SoftwareBreakpoint) :
    (removeEntry address bHead).Sublist bHead := by
  induction bHead with
  | nil => exact .refl _
  | cons b rest ih =>
      simp only [removeEntry]
      split
      · exact List.sublist_cons_self b rest
      · exact ih.cons_cons b

theorem mem_removeEntry_other (other : entry.addr ≠ address) (member : entry ∈ bHead) :
    entry ∈ removeEntry address bHead := by
  induction bHead with
  | nil => simp at member
  | cons b rest ih =>
      simp only [removeEntry]
      split <;> rcases List.mem_cons.mp member with rfl | old
      · rename_i same
        exact absurd same other
      · exact old
      · exact List.mem_cons_self
      · exact List.mem_cons_of_mem _ (ih old)

/-- The new table is the old one except for what it has at one address: nothing, or an
entry with the flag. -/
structure TableAt (address : Nat) (flag : Option Bool) (old new : List SoftwareBreakpoint) :
    Prop where
  increasing : Increasing new
  others : ∀ b : SoftwareBreakpoint, b.addr ≠ address → (b ∈ new ↔ b ∈ old)
  here : ∀ b ∈ new, b.addr = address → flag = some b.enabled
  present : flag.isSome → ∃ b ∈ new, b.addr = address

theorem tableAt_setEnabled (increasing : Increasing bHead)
    (found : findEntry address bHead = some b) (enabled : Bool) :
    TableAt address (some enabled) bHead (setEnabled address enabled bHead) where
  increasing := increasing_setEnabled enabled increasing
  others entry other := by
    refine ⟨fun member => ?_, mem_setEnabled_other other⟩
    clear found increasing
    induction bHead with
    | nil => exact member
    | cons head rest ih =>
        simp only [setEnabled] at member
        split at member <;> rcases List.mem_cons.mp member with rfl | later
        · exact absurd ‹_› other
        · exact List.mem_cons_of_mem _ later
        · exact List.mem_cons_self
        · exact List.mem_cons_of_mem _ (ih later)
  here entry member same := by
    clear found
    induction bHead with
    | nil => simp [setEnabled] at member
    | cons head rest ih =>
        obtain ⟨below, sorted⟩ := List.pairwise_cons.mp increasing
        simp only [setEnabled] at member
        split at member <;> rcases List.mem_cons.mp member with rfl | later
        · rfl
        · rename_i first
          exact absurd (below entry later) (by omega)
        · rename_i other
          exact absurd same other
        · exact ih sorted later
  present _ := ⟨_, mem_setEnabled_self found, (findEntry_some found).2⟩

theorem tableAt_insertBreakpoint (increasing : Increasing bHead)
    (fresh : findEntry b.addr bHead = none) :
    TableAt b.addr (some b.enabled) bHead (insertBreakpoint b bHead) where
  increasing := increasing_insertBreakpoint increasing fresh
  others entry other := by
    rw [mem_insertBreakpoint, or_iff_right]
    rintro rfl
    exact other rfl
  here entry member same := by
    rcases mem_insertBreakpoint.mp member with rfl | old
    · rfl
    · exact absurd same (findEntry_none.mp fresh entry old)
  present _ := ⟨b, mem_insertBreakpoint.mpr (.inl rfl), rfl⟩

theorem tableAt_removeEntry (increasing : Increasing bHead) (address : Nat) :
    TableAt address none bHead (removeEntry address bHead) where
  increasing := increasing.sublist (removeEntry_sublist address bHead)
  others entry other :=
    ⟨fun member => (removeEntry_sublist address bHead).subset member, mem_removeEntry_other other⟩
  here entry member same := by
    induction bHead with
    | nil => simp [removeEntry] at member
    | cons head rest ih =>
        obtain ⟨below, sorted⟩ := List.pairwise_cons.mp increasing
        simp only [removeEntry] at member
        split at member
        · rename_i first
          exact absurd (below entry member) (by omega)
        · rename_i other
          rcases List.mem_cons.mp member with rfl | later
          · exact absurd same other
          · exact ih sorted later
  present none := by simp at none

variable {g g' : GlobalState} {x : Nat}

theorem enabledAddrs_congr (table : g'.bHead = g.bHead) : g'.enabledAddrs = g.enabledAddrs := by
  simp only [GlobalState.enabledAddrs, table]

theorem mem_enabledAddrs_insert (table : g'.bHead = insertBreakpoint b g.bHead)
    (enabled : b.enabled = true) : x ∈ g'.enabledAddrs ↔ x = b.addr ∨ x ∈ g.enabledAddrs := by
  simp only [GlobalState.mem_enabledAddrs, table, mem_insertBreakpoint]
  constructor
  · rintro ⟨entry, rfl | old, on, rfl⟩
    · exact .inl rfl
    · exact .inr ⟨entry, old, on, rfl⟩
  · rintro (rfl | ⟨entry, old, on, rfl⟩)
    · exact ⟨b, .inl rfl, enabled, rfl⟩
    · exact ⟨entry, .inr old, on, rfl⟩

theorem mem_enabledAddrs_setEnabled_self
    (table : g'.bHead = setEnabled address true g.bHead)
    (found : findEntry address g.bHead = some b) : address ∈ g'.enabledAddrs := by
  rw [GlobalState.mem_enabledAddrs, table]
  exact ⟨_, mem_setEnabled_self found, rfl, (findEntry_some found).2⟩

theorem mem_enabledAddrs_setEnabled_other {enabled : Bool}
    (table : g'.bHead = setEnabled address enabled g.bHead) (other : x ≠ address)
    (member : x ∈ g.enabledAddrs) : x ∈ g'.enabledAddrs := by
  rw [GlobalState.mem_enabledAddrs] at member ⊢
  obtain ⟨entry, inTable, on, rfl⟩ := member
  rw [table]
  exact ⟨entry, mem_setEnabled_other other inTable, on, rfl⟩

theorem mem_enabledAddrs_removeEntry_other
    (table : g'.bHead = removeEntry address g.bHead) (other : x ≠ address)
    (member : x ∈ g.enabledAddrs) : x ∈ g'.enabledAddrs := by
  rw [GlobalState.mem_enabledAddrs] at member ⊢
  obtain ⟨entry, inTable, on, rfl⟩ := member
  rw [table]
  exact ⟨entry, mem_removeEntry_other other inTable, on, rfl⟩

end Table

variable {K : Type}

def registerBreakpoint (g : GlobalState) (w : World K) (address : Nat) : GlobalState × World K :=
  let instruction := w.peekdata address
  let patchedInstruction := installBreakpoint instruction
  let w := w.pokedata address patchedInstruction
  match findEntry address g.bHead with
  | some _ => ({ g with bHead := setEnabled address true g.bHead }, w)
  | none =>
      let b :=
        { addr := address, instruction, patchedInstruction, enabled := true, patched := rfl }
      ({ g with bHead := insertBreakpoint b g.bHead }, w)

def unregisterBreakpoint (g : GlobalState) (address : Nat) : GlobalState :=
  { g with bHead := removeEntry address g.bHead }

/-- Registering an address again switches its entry on; the saved word stays. -/
theorem registerBreakpoint_cases (g : GlobalState) (w : World K) (address : Nat) :
    (∃ b, findEntry address g.bHead = some b ∧
      registerBreakpoint g w address = ({ g with bHead := setEnabled address true g.bHead },
        w.pokedata address (installBreakpoint (w.peekdata address)))) ∨
    (∃ b : SoftwareBreakpoint, findEntry address g.bHead = none ∧ b.addr = address ∧
      b.instruction = w.peekdata address ∧ b.enabled = true ∧
      registerBreakpoint g w address = ({ g with bHead := insertBreakpoint b g.bHead },
        w.pokedata address (installBreakpoint (w.peekdata address)))) := by
  unfold registerBreakpoint
  split
  · rename_i b found
    exact .inl ⟨b, found, rfl⟩
  · rename_i absent
    exact .inr ⟨_, absent, rfl, rfl, rfl, rfl⟩

theorem tableAt_registerBreakpoint {g : GlobalState} (increasing : Increasing g.bHead)
    (w : World K) (address : Nat) :
    TableAt address (some true) g.bHead (registerBreakpoint g w address).1.bHead := by
  rcases registerBreakpoint_cases g w address with
    ⟨b, found, registered⟩ | ⟨b, absent, rfl, -, on, registered⟩
  · rw [registered]
    exact tableAt_setEnabled increasing found true
  · rw [registered, ← on]
    exact tableAt_insertBreakpoint increasing absent

/-- `none` is the null dereference of `state->t_HEAD->tid`. -/
def enableBreakpoint (g : GlobalState) (w : World K) (address : Nat) :
    Option (GlobalState × World K) :=
  match findEntry address g.bHead, g.tHead with
  | none, _ => some (g, w)
  | some _, [] => none
  | some b, _ :: _ =>
      some ({ g with bHead := setEnabled address true g.bHead },
        w.pokedata address b.patchedInstruction)

/-- `none` is the null dereference of `state->t_HEAD->tid`. -/
def disableBreakpoint (g : GlobalState) (w : World K) (address : Nat) :
    Option (GlobalState × World K) :=
  match findEntry address g.bHead, g.tHead with
  | none, _ => some (g, w)
  | some _, [] => none
  | some b, _ :: _ =>
      some ({ g with bHead := setEnabled address false g.bHead },
        w.pokedata address b.instruction)

theorem enableBreakpoint_cases {g g' : GlobalState} {w w' : World K} {address : Nat}
    (switched : enableBreakpoint g w address = some (g', w')) :
    (findEntry address g.bHead = none ∧ g' = g ∧ w' = w) ∨
      ∃ b, findEntry address g.bHead = some b ∧
        g' = { g with bHead := setEnabled address true g.bHead } ∧
        w' = w.pokedata address b.patchedInstruction := by
  unfold enableBreakpoint at switched
  split at switched <;> cases switched
  · rename_i absent
    exact .inl ⟨absent, rfl, rfl⟩
  · rename_i b _ _ found _
    exact .inr ⟨b, found, rfl, rfl⟩

theorem disableBreakpoint_cases {g g' : GlobalState} {w w' : World K} {address : Nat}
    (switched : disableBreakpoint g w address = some (g', w')) :
    (findEntry address g.bHead = none ∧ g' = g ∧ w' = w) ∨
      ∃ b, findEntry address g.bHead = some b ∧
        g' = { g with bHead := setEnabled address false g.bHead } ∧
        w' = w.pokedata address b.instruction := by
  unfold disableBreakpoint at switched
  split at switched <;> cases switched
  · rename_i absent
    exact .inl ⟨absent, rfl, rfl⟩
  · rename_i b _ _ found _
    exact .inr ⟨b, found, rfl, rfl⟩

def freeBreakpoints (g : GlobalState) : GlobalState := { g with bHead := [] }

/-- The arming loop at the end of `prepare_for_run`. -/
def armBreakpoints (g : GlobalState) (w : World K) : World K :=
  g.bHead.foldl (fun w b => if b.enabled then w.pokedata b.addr b.patchedInstruction else w) w

/-- The restore loop of `wait_all_and_update_regs` and of the cleanup of `stepping_finish`. -/
def restoreBreakpoints (g : GlobalState) (w : World K) : World K :=
  g.bHead.foldl (fun w b => if b.enabled then w.pokedata b.addr b.instruction else w) w

/-- Both loops write one word for each enabled breakpoint, in list order. -/
private theorem foldl_pokedata (word : SoftwareBreakpoint → Word)
    (bHead : List SoftwareBreakpoint) (w : World K) :
    bHead.foldl (fun w b => if b.enabled then w.pokedata b.addr (word b) else w) w =
      { w with
        mem := pokeAll ((bHead.filter (·.enabled)).map fun b => (b.addr, word b)) w.mem } := by
  induction bHead generalizing w with
  | nil => rfl
  | cons b rest ih =>
      rw [List.foldl_cons, ih]
      cases on : b.enabled <;> simp [on, World.pokedata]

theorem armBreakpoints_eq (g : GlobalState) (w : World K) :
    armBreakpoints g w =
      { w with
        mem := pokeAll ((g.bHead.filter (·.enabled)).map fun b =>
          (b.addr, b.patchedInstruction)) w.mem } :=
  foldl_pokedata _ _ _

theorem restoreBreakpoints_eq (g : GlobalState) (w : World K) :
    restoreBreakpoints g w =
      { w with
        mem := pokeAll ((g.bHead.filter (·.enabled)).map fun b =>
          (b.addr, b.instruction)) w.mem } :=
  foldl_pokedata _ _ _

end Libdebug.Cffi
