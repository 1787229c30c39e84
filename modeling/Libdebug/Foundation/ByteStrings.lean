import Libdebug.Foundation.ByteMemory

/-!
Byte strings in memory: reading and storing a run of bytes, the words that spell eight of
them, and Python's ranges and slices, by which loops walk through both.
-/

namespace Libdebug.Foundation

/-- The bytes at `[addr, addr + n)`. -/
def bytesAt (memory : Memory) (addr n : Nat) : List Byte :=
  (List.range n).map fun i => memory (addr + i)

/-- The memory with the bytes at `[addr, addr + data.length)` replaced. -/
def store (memory : Memory) (addr : Nat) (data : List Byte) : Memory := fun x =>
  if addr ≤ x then data[x - addr]?.getD (memory x) else memory x

/-- `word.to_bytes(8, "little")` -/
def toBytes (word : Word) : List Byte := (List.range 8).map (byteOf word)

/-- `int.from_bytes(data, "little")`, of eight bytes at most -/
def fromBytes (data : List Byte) : Word := littleEndian (fun k => data.getD k 0) 8

variable {memory : Memory} {addr x : Nat} {data : List Byte}

/-! ### Reading and storing -/

@[simp] theorem length_bytesAt (memory : Memory) (addr n : Nat) :
    (bytesAt memory addr n).length = n := by
  simp [bytesAt]

@[simp] theorem bytesAt_zero (memory : Memory) (addr : Nat) : bytesAt memory addr 0 = [] := rfl

theorem bytesAt_add (memory : Memory) (addr m n : Nat) :
    bytesAt memory addr (m + n) = bytesAt memory addr m ++ bytesAt memory (addr + m) n := by
  simp [bytesAt, List.range_add, Nat.add_assoc, Function.comp_def]

theorem take_bytesAt (memory : Memory) (addr : Nat) {m n : Nat} (short : m ≤ n) :
    (bytesAt memory addr n).take m = bytesAt memory addr m := by
  obtain ⟨rest, rfl⟩ := Nat.exists_eq_add_of_le short
  rw [bytesAt_add, List.take_left' (length_bytesAt memory addr m)]

theorem drop_bytesAt (memory : Memory) (addr m n : Nat) :
    (bytesAt memory addr (m + n)).drop m = bytesAt memory (addr + m) n := by
  rw [bytesAt_add, List.drop_left' (length_bytesAt memory addr m)]

theorem store_inside {i : Nat} (bound : i < data.length) :
    store memory addr data (addr + i) = data[i] := by
  simp [store, bound]

theorem store_outside (outside : x < addr ∨ addr + data.length ≤ x) :
    store memory addr data x = memory x := by
  unfold store
  split
  · rw [List.getElem?_eq_none (by omega), Option.getD_none]
  · rfl

@[simp] theorem store_nil (memory : Memory) (addr : Nat) : store memory addr [] = memory := by
  funext x
  exact store_outside (by simp; omega)

/-- Storing in two pieces. -/
theorem store_append (memory : Memory) (addr : Nat) (first second : List Byte) :
    store memory addr (first ++ second) =
      store (store memory addr first) (addr + first.length) second := by
  funext x
  by_cases before : x < addr
  · rw [store_outside (.inl before), store_outside (.inl (by omega)), store_outside (.inl before)]
  · obtain ⟨i, rfl⟩ := Nat.exists_eq_add_of_le (Nat.le_of_not_lt before)
    by_cases inFirst : i < first.length
    · rw [store_inside (by simp; omega), store_outside (.inl (by omega)), store_inside inFirst,
        List.getElem_append_left inFirst]
    · obtain ⟨j, rfl⟩ := Nat.exists_eq_add_of_le (Nat.le_of_not_lt inFirst)
      by_cases inSecond : j < second.length
      · rw [store_inside (by simp; omega), ← Nat.add_assoc, store_inside inSecond]
        simp
      · rw [store_outside (.inr (by simp; omega)), store_outside (.inr (by omega)),
          store_outside (.inr (by omega))]

/-- Reading back what was stored. -/
theorem bytesAt_store (memory : Memory) (addr : Nat) (data : List Byte) :
    bytesAt (store memory addr data) addr data.length = data := by
  apply List.ext_getElem
  · simp
  · intro i _ bound
    simp [bytesAt, store_inside bound]

/-- Storing what is there changes nothing. -/
theorem store_bytesAt (memory : Memory) (addr n : Nat) :
    store memory addr (bytesAt memory addr n) = memory := by
  funext x
  by_cases inside : addr ≤ x ∧ x < addr + n
  · obtain ⟨i, rfl⟩ := Nat.exists_eq_add_of_le inside.1
    rw [store_inside (by simp; omega)]
    simp [bytesAt]
  · exact store_outside (by simp; omega)

theorem bytesAt_congr {other : Memory} {n : Nat}
    (same : ∀ i < n, other (addr + i) = memory (addr + i)) :
    bytesAt other addr n = bytesAt memory addr n := by
  apply List.map_congr_left
  intro i member
  exact same i (List.mem_range.mp member)

/-- Writing back the bytes that follow leaves them as they were. -/
theorem store_append_kept (memory : Memory) (addr : Nat) (data : List Byte) (n : Nat) :
    store memory addr (data ++ bytesAt memory (addr + data.length) n) = store memory addr data := by
  have kept : bytesAt (store memory addr data) (addr + data.length) n =
      bytesAt memory (addr + data.length) n := by
    apply bytesAt_congr
    intro i _
    exact store_outside (.inr (by omega))
  rw [store_append, ← kept, store_bytesAt]

/-! ### Words -/

theorem toBytes_peekWord (memory : Memory) (addr : Nat) :
    toBytes (peekWord memory addr) = bytesAt memory addr 8 := by
  apply List.map_congr_left
  intro i member
  exact byteOf_peekWord memory addr (List.mem_range.mp member)

/-- The bytes of a word, read as a number, spell the word. -/
theorem fromBytes_bytesAt (memory : Memory) (addr : Nat) :
    fromBytes (bytesAt memory addr 8) = peekWord memory addr := by
  apply littleEndian_congr
  intro k inside
  simp [bytesAt, List.getElem?_range inside]

theorem byteOf_fromBytes {k : Nat} (inside : k < 8) :
    byteOf (fromBytes data) k = data.getD k 0 := by
  have spelled := byteOf_peekWord (fun k => data.getD k 0) 0 inside
  simpa [peekWord, fromBytes] using spelled

/-- Writing a word stores the eight bytes that spell it. -/
theorem pokeWord_fromBytes (memory : Memory) (addr : Nat) (eight : data.length = 8) :
    pokeWord memory addr (fromBytes data) = store memory addr data := by
  funext x
  by_cases covered : Covers addr x
  · obtain ⟨i, rfl⟩ := Nat.exists_eq_add_of_le covered.1
    have inside : i < 8 := by
      have := covered.2
      omega
    rw [pokeWord_inside covered, store_inside (by omega), Nat.add_sub_cancel_left,
      byteOf_fromBytes inside, List.getD_eq_getElem?_getD, List.getElem?_eq_getElem (by omega),
      Option.getD_some]
  · rw [pokeWord_outside covered, store_outside]
    unfold Covers at covered
    omega

/-! ### Ranges and slices -/

/-- `range(start, stop, step)`, where the step is positive -/
def pyRange (start stop step : Int) : List Int :=
  (List.range ((stop - start + step - 1) / step).toNat).map fun (i : Nat) => start + step * i

/-- An index of a slice: one that is negative counts from the end. -/
def sliceIndex (length : Nat) (i : Int) : Nat := if i < 0 then (length + i).toNat else i.toNat

/-- `data[:stop]` -/
def sliceTo (data : List Byte) (stop : Int) : List Byte :=
  data.take (sliceIndex data.length stop)

/-- `data[start:]` -/
def sliceFrom (data : List Byte) (start : Int) : List Byte :=
  data.drop (sliceIndex data.length start)

/-- `data[start:stop]` -/
def slice (data : List Byte) (start stop : Int) : List Byte :=
  (data.take (sliceIndex data.length stop)).drop (sliceIndex data.length start)

@[simp] theorem sliceIndex_natCast (length i : Nat) : sliceIndex length (i : Int) = i := by
  rw [sliceIndex, if_neg (by omega), Int.toNat_natCast]

@[simp] theorem sliceTo_natCast (data : List Byte) (stop : Nat) :
    sliceTo data (stop : Int) = data.take stop := by
  simp [sliceTo]

@[simp] theorem sliceFrom_natCast (data : List Byte) (start : Nat) :
    sliceFrom data (start : Int) = data.drop start := by
  simp [sliceFrom]

/-- A slice of a given size. -/
theorem slice_natCast (data : List Byte) (start size : Nat) :
    slice data (start : Int) ((start : Int) + size) = (data.drop start).take size := by
  have stop : ((start : Int) + size) = ((start + size : Nat) : Int) := by push_cast; rfl
  rw [slice, stop, sliceIndex_natCast, sliceIndex_natCast, List.drop_take]
  congr 1
  omega

/-- The range of the full units of a run of bytes. -/
theorem pyRange_full (start : Int) (units unit : Nat) (positive : 0 < unit) :
    pyRange start (start + (unit * units : Nat)) unit =
      (List.range units).map fun (i : Nat) => start + unit * i := by
  have count : ((start + (unit * units : Nat) - start + unit - 1) / unit).toNat = units := by
    have split : start + (unit * units : Nat) - start + unit - 1 = (unit - 1) + unit * units := by
      push_cast
      omega
    rw [split, Int.add_mul_ediv_left _ _ (by omega), Int.ediv_eq_zero_of_lt (by omega) (by omega)]
    simp
  rw [pyRange, count]

theorem pyRange_units (start units unit : Nat) (positive : 0 < unit) :
    pyRange start (start + (unit * units : Nat)) unit =
      (List.range units).map fun i => ((start + unit * i : Nat) : Int) := by
  rw [pyRange_full start units unit positive]
  apply List.map_congr_left
  intro i _
  push_cast
  rfl

end Libdebug.Foundation
