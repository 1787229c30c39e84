import Mathlib.Logic.Function.Basic
import Mathlib.Data.List.Nodup

/-!
Caches that are written back. The cells of a store can be written one by one: a write of a valid
value replaces what was written there before and does not affect the other cells. What is written
to a slot of the cache reaches its cell when the slot is settled.
-/

namespace Libdebug.Foundation

variable {S κ V A : Type}

/-- Writes to the cells of a store -/
structure Overwrites (write : κ → V → S → S) (valid : V → Prop) : Prop where
  again : ∀ {new}, valid new → ∀ key old s, write key new (write key old s) = write key new s
  commute : ∀ {key other}, key ≠ other → ∀ x y s,
    write key x (write other y s) = write other y (write key x s)

/-- Write the slots that wait for it to their cells. -/
def settleCells (write : κ → V → S → S) (slots : A → V) (pending : A → Bool) (cells : List (κ × A))
    (s : S) : S :=
  cells.foldl (fun s cell => if pending cell.2 then write cell.1 (slots cell.2) s else s) s

variable {write : κ → V → S → S} {slots changed : A → V} {pending waiting : A → Bool}
  {cells : List (κ × A)} {key : κ} {s : S} {valid : V → Prop}

@[simp] theorem settleCells_nil : settleCells write slots pending [] s = s := rfl

@[simp] theorem settleCells_cons (cell : κ × A) :
    settleCells write slots pending (cell :: cells) s = settleCells write slots pending cells
      (if pending cell.2 then write cell.1 (slots cell.2) s else s) := rfl

theorem settleCells_congr (same : ∀ cell ∈ cells, waiting cell.2 = pending cell.2 ∧
    (pending cell.2 = true → changed cell.2 = slots cell.2)) :
    settleCells write changed waiting cells s = settleCells write slots pending cells s := by
  induction cells generalizing s with
  | nil => rfl
  | cons cell rest ih =>
      obtain ⟨⟨waits, equal⟩, later⟩ := List.forall_mem_cons.mp same
      rw [settleCells_cons, settleCells_cons, waits, ih later]
      cases here : pending cell.2 with
      | true => simp only [equal here, if_true]
      | false => simp only [Bool.false_eq_true, if_false]

/-- Where nothing waits nothing is written. -/
theorem settleCells_of_none (none : ∀ cell ∈ cells, pending cell.2 = false) :
    settleCells write slots pending cells s = s := by
  induction cells with
  | nil => rfl
  | cons cell rest ih =>
      obtain ⟨here, later⟩ := List.forall_mem_cons.mp none
      rw [settleCells_cons, here, if_neg (by decide), ih later]

/-- A cell whose slot does not wait may as well be left out. -/
theorem settleCells_erase [DecidableEq κ] [DecidableEq A] {cell : κ × A}
    (settled : pending cell.2 = false) : settleCells write slots pending (cells.erase cell) s =
      settleCells write slots pending cells s := by
  induction cells generalizing s with
  | nil => rfl
  | cons first rest ih =>
      by_cases same : first = cell
      · subst same
        rw [List.erase_cons_head, settleCells_cons, settled, if_neg (by decide)]
      · rw [List.erase_cons_tail (by simpa using same), settleCells_cons, settleCells_cons, ih]

namespace Overwrites

variable (overwrites : Overwrites write valid)

include overwrites

theorem write_settleCells (absent : key ∉ cells.map Prod.fst) (value : V) :
    write key value (settleCells write slots pending cells s) =
      settleCells write slots pending cells (write key value s) := by
  induction cells generalizing s with
  | nil => rfl
  | cons cell rest ih =>
      rw [List.map_cons, List.mem_cons, not_or] at absent
      rw [settleCells_cons, settleCells_cons, ih absent.2]
      cases pending cell.2 with
      | true => rw [if_pos rfl, if_pos rfl, overwrites.commute absent.1]
      | false => rfl

/-- A write is lost on a store whose cells are all written afterwards. -/
theorem flush_write (distinct : (cells.map Prod.fst).Nodup) {slot : A}
    (member : (key, slot) ∈ cells) (fits : valid (slots slot)) (value : V) :
    settleCells write slots (fun _ => true) cells (write key value s) =
      settleCells write slots (fun _ => true) cells s := by
  induction cells generalizing s with
  | nil => cases member
  | cons cell rest ih =>
      obtain ⟨absent, distinct⟩ := List.nodup_cons.mp distinct
      rw [settleCells_cons, settleCells_cons, if_pos rfl, if_pos rfl]
      rcases List.mem_cons.mp member with rfl | later
      · rw [overwrites.again fits]
      · have different : cell.1 ≠ key := by
          rintro rfl
          exact absent (List.mem_map.mpr ⟨_, later, rfl⟩)
        rw [overwrites.commute different, ih distinct later]

/-- **A flush makes up for every write that has been put off.** -/
theorem flush_settleCells (distinct : (cells.map Prod.fst).Nodup)
    (fits : ∀ cell ∈ cells, pending cell.2 = true → valid (slots cell.2)) :
    settleCells write slots (fun _ => true) cells (settleCells write slots pending cells s) =
      settleCells write slots (fun _ => true) cells s := by
  have made (others : List (κ × A)) (sub : others ⊆ cells) (s : S) :
      settleCells write slots (fun _ => true) cells (settleCells write slots pending others s) =
        settleCells write slots (fun _ => true) cells s := by
    induction others generalizing s with
    | nil => rfl
    | cons cell rest ih =>
        obtain ⟨here, later⟩ := List.cons_subset.mp sub
        rw [settleCells_cons, ih later]
        split
        · exact overwrites.flush_write distinct here (fits cell here ‹_›) _
        · rfl
  exact made cells (List.Subset.refl cells) s

/-- **A write that is put off**: a cell that is written at once is a slot that waits. -/
theorem settleCells_update [DecidableEq A] (keys : (cells.map Prod.fst).Nodup)
    (names : (cells.map Prod.snd).Nodup) {slot : A} (member : (key, slot) ∈ cells) {value : V}
    (fits : valid value) : write key value (settleCells write slots pending cells s) =
      settleCells write (Function.update slots slot value) (fun name => name = slot || pending name)
        cells s := by
  induction cells generalizing s with
  | nil => cases member
  | cons cell rest ih =>
      obtain ⟨otherKeys, keys⟩ := List.nodup_cons.mp keys
      obtain ⟨otherNames, names⟩ := List.nodup_cons.mp names
      rcases List.mem_cons.mp member with rfl | later
      · have elsewhere : settleCells write (Function.update slots slot value)
            (fun name => name = slot || pending name) rest (write key value s) =
              settleCells write slots pending rest (write key value s) := by
          refine settleCells_congr fun other there => ?_
          have different : other.2 ≠ slot := by
            rintro rfl
            exact otherNames (List.mem_map.mpr ⟨other, there, rfl⟩)
          simp [different]
        rw [settleCells_cons, settleCells_cons, overwrites.write_settleCells otherKeys]
        simp only [decide_true, Bool.true_or, if_true, Function.update_self]
        rw [elsewhere]
        split
        · rw [overwrites.again fits]
        · rfl
      · have different : cell.2 ≠ slot := by
          rintro rfl
          exact otherNames (List.mem_map.mpr ⟨_, later, rfl⟩)
        rw [settleCells_cons, settleCells_cons, ih keys names later]
        simp only [different, decide_false, Bool.false_or, Function.update_of_ne different]

end Overwrites

end Libdebug.Foundation
