import Mathlib.Data.List.Basic
import Mathlib.Tactic.Common

/-!
Byte-addressed memory accessed through little-endian eight-byte words, and what
remains after a sequence of overlapping word writes.

`pokeAll` performs writes in order, so a byte finally holds what the last write
covering it stored there (`pokeAll_last`), and a byte no write covers is kept
(`pokeAll_outside`). When the writes come in strictly increasing address order,
no write disturbs the first byte of an earlier one (`pokeAll_first_byte`).
-/

namespace Libdebug.Foundation

abbrev Byte := BitVec 8
abbrev Word := BitVec 64
abbrev Memory := Nat → Byte

/-- Byte `k` of a word, counted from the least significant one. -/
def byteOf (word : Word) (k : Nat) : Byte := word.extractLsb' (8 * k) 8

/-- The number spelled by `n` bytes, least significant first. -/
def littleEndian (bytes : Nat → Byte) : (n : Nat) → BitVec (8 * n)
  | 0 => 0
  | n + 1 => (bytes n ++ littleEndian bytes n).cast (by omega)

def peekWord (memory : Memory) (addr : Nat) : Word :=
  littleEndian (fun k => memory (addr + k)) 8

/-- The eight-byte window of a word access at `addr` contains `x`. -/
def Covers (addr x : Nat) : Prop := addr ≤ x ∧ x < addr + 8

instance (addr x : Nat) : Decidable (Covers addr x) :=
  inferInstanceAs (Decidable (addr ≤ x ∧ x < addr + 8))

def pokeWord (memory : Memory) (addr : Nat) (word : Word) : Memory := fun x =>
  if Covers addr x then byteOf word (x - addr) else memory x

theorem getLsbD_littleEndian (bytes : Nat → Byte) {n k i : Nat} (inside : k < n) (bit : i < 8) :
    (littleEndian bytes n).getLsbD (8 * k + i) = (bytes k).getLsbD i := by
  induction n with
  | zero => omega
  | succ n ih =>
      simp only [littleEndian, BitVec.getLsbD_cast, BitVec.getLsbD_append]
      by_cases last : k = n
      · subst k
        rw [if_neg (by omega)]
        congr 1
        omega
      · rw [if_pos (by omega)]
        exact ih (by omega)

theorem littleEndian_congr {bytes other : Nat → Byte} {n : Nat}
    (same : ∀ k < n, bytes k = other k) : littleEndian bytes n = littleEndian other n := by
  induction n with
  | zero => rfl
  | succ n ih =>
      rw [littleEndian, littleEndian, same n (Nat.lt_succ_self n)]
      rw [ih fun k before => same k (by omega)]

/-- A word read from memory spells the eight bytes of its window. -/
theorem byteOf_peekWord (memory : Memory) (addr : Nat) {k : Nat} (inside : k < 8) :
    byteOf (peekWord memory addr) k = memory (addr + k) := by
  ext i bit
  have spelled := getLsbD_littleEndian (fun k => memory (addr + k)) inside bit
  simpa [byteOf, peekWord, bit, ← BitVec.getLsbD_eq_getElem] using spelled

theorem pokeWord_inside {memory : Memory} {addr x : Nat} {word : Word}
    (covered : Covers addr x) : pokeWord memory addr word x = byteOf word (x - addr) :=
  if_pos covered

theorem pokeWord_outside {memory : Memory} {addr x : Nat} {word : Word}
    (uncovered : ¬ Covers addr x) : pokeWord memory addr word x = memory x :=
  if_neg uncovered

/-! ### Sequences of overlapping writes -/

/-- Perform the writes of a list in order. -/
def pokeAll (writes : List (Nat × Word)) (memory : Memory) : Memory :=
  writes.foldl (fun m write => pokeWord m write.1 write.2) memory

@[simp] theorem pokeAll_nil (memory : Memory) : pokeAll [] memory = memory := rfl

@[simp] theorem pokeAll_cons (addr : Nat) (word : Word) (writes : List (Nat × Word))
    (memory : Memory) :
    pokeAll ((addr, word) :: writes) memory = pokeAll writes (pokeWord memory addr word) := rfl

theorem pokeAll_append (first second : List (Nat × Word)) (memory : Memory) :
    pokeAll (first ++ second) memory = pokeAll second (pokeAll first memory) :=
  List.foldl_append

/-- A byte that no write covers is kept. -/
theorem pokeAll_outside {writes : List (Nat × Word)} {x : Nat}
    (uncovered : ∀ write ∈ writes, ¬ Covers write.1 x) (memory : Memory) :
    pokeAll writes memory x = memory x := by
  induction writes generalizing memory with
  | nil => rfl
  | cons write rest ih =>
      obtain ⟨here, later⟩ := List.forall_mem_cons.mp uncovered
      exact (ih later _).trans (pokeWord_outside here)

/-- What a byte finally holds depends on what that byte held before only. -/
theorem pokeAll_congr {writes : List (Nat × Word)} {x : Nat} {memory other : Memory}
    (same : memory x = other x) : pokeAll writes memory x = pokeAll writes other x := by
  induction writes generalizing memory other with
  | nil => exact same
  | cons write rest ih =>
      rw [pokeAll_cons, pokeAll_cons]
      apply ih
      by_cases covered : Covers write.1 x
      · rw [pokeWord_inside covered, pokeWord_inside covered]
      · rw [pokeWord_outside covered, pokeWord_outside covered, same]

/-- A covered byte finally holds what the last write covering it stored. -/
theorem pokeAll_last {first second : List (Nat × Word)} {addr x : Nat} {word : Word}
    (covered : Covers addr x) (later : ∀ write ∈ second, ¬ Covers write.1 x) (memory : Memory) :
    pokeAll (first ++ (addr, word) :: second) memory x = byteOf word (x - addr) := by
  rw [pokeAll_append, pokeAll_cons, pokeAll_outside later, pokeWord_inside covered]

/-- Induction rule for one byte: a property that every covering write stores, and
that the byte had before unless some write covers it, holds of the byte at the end. -/
theorem pokeAll_induct {motive : Byte → Prop} {writes : List (Nat × Word)} {x : Nat}
    {memory : Memory}
    (stores : ∀ write ∈ writes, Covers write.1 x → motive (byteOf write.2 (x - write.1)))
    (before : (∃ write ∈ writes, Covers write.1 x) ∨ motive (memory x)) :
    motive (pokeAll writes memory x) := by
  induction writes generalizing memory with
  | nil => simpa using before
  | cons write rest ih =>
      obtain ⟨here, later⟩ := List.forall_mem_cons.mp stores
      rw [pokeAll_cons]
      refine ih later ?_
      by_cases covered : Covers write.1 x
      · exact .inr (by rw [pokeWord_inside covered]; exact here covered)
      · rw [pokeWord_outside covered]
        simpa [covered] using before

/-- In strictly increasing address order a covered byte finally holds what the write at
the highest address covering it stored. -/
theorem pokeAll_nearest {writes : List (Nat × Word)}
    (increasing : writes.Pairwise fun first second => first.1 < second.1)
    {addr x : Nat} {word : Word} (member : (addr, word) ∈ writes) (covered : Covers addr x)
    (nearest : ∀ write ∈ writes, Covers write.1 x → write.1 ≤ addr) (memory : Memory) :
    pokeAll writes memory x = byteOf word (x - addr) := by
  obtain ⟨first, second, rfl⟩ := List.append_of_mem member
  apply pokeAll_last covered
  intro write later inside
  have beyond := (List.pairwise_cons.mp (List.pairwise_append.mp increasing).2.1).1 write later
  have below := nearest write
    (List.mem_append_right _ (List.mem_cons_of_mem _ later)) inside
  omega

/-- In strictly increasing address order no write disturbs the first byte of
another one: a later window starts beyond it. -/
theorem pokeAll_first_byte {writes : List (Nat × Word)}
    (increasing : writes.Pairwise fun first second => first.1 < second.1)
    {addr : Nat} {word : Word} (member : (addr, word) ∈ writes) (memory : Memory) :
    pokeAll writes memory addr = byteOf word 0 := by
  have covered : Covers addr addr := ⟨Nat.le_refl _, by omega⟩
  have nearest : ∀ write ∈ writes, Covers write.1 addr → write.1 ≤ addr :=
    fun _ _ inside => inside.1
  rw [pokeAll_nearest increasing member covered nearest memory, Nat.sub_self]

example : peekWord (fun x => BitVec.ofNat 8 x) 1 = 0x0807060504030201#64 := by decide

end Libdebug.Foundation
