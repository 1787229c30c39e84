import Libdebug.Data.MemoryView

/-!
`MemoryView` with an alignment. The first unit is read or written on its own, from the aligned
address in front of the one that is asked for; what follows it goes as without an alignment.
-/

namespace Libdebug.Data.AlignedAccess

open Libdebug.Foundation Libdebug.Cffi

/-- A view of a memory that can be read and written everywhere. The getter reads a unit, the
setter stores the bytes it is given. -/
def units (unitSize : Nat) (alignTo : Int) : MemoryView (EStateM Empty Memory) where
  getter address := do
    let memory ← get
    pure (bytesAt memory address.toNat unitSize)
  setter address data := modify fun memory => store memory address.toNat data
  unitSize := unitSize
  alignTo := alignTo

variable {unitSize address size : Nat} {alignTo : Int} {memory : Memory} {data : List Byte}

theorem units_shows (positive : 0 < unitSize) (alignTo : Int) :
    Shows (units unitSize alignTo) unitSize id (fun _ memory => memory) where
  unitSize := rfl
  positive := positive
  getter _ _ := rfl
  setter _ _ _ _ := rfl
  mem_withMem _ _ := rfl
  withMem_withMem _ _ _ := rfl
  withMem_self _ := rfl

theorem run_unitSetter (unitSize address : Nat) (alignTo : Int) (memory : Memory)
    (data : List Byte) :
    ((units unitSize alignTo).setter (address : Int) data).run memory =
      .ok () (store memory address data) := rfl

/-! ### Without an alignment -/

theorem run_unalignedRead (positive : 0 < unitSize) (memory : Memory) (address size : Nat) :
    ((units unitSize 1).read address size).run memory =
      .ok (bytesAt memory address size) memory :=
  (units_shows positive 1).run_readRest memory address (Nat.zero_le size) []

theorem run_unalignedWrite (positive : 0 < unitSize) (memory : Memory) (address : Nat)
    (data : List Byte) :
    ((units unitSize 1).write address data).run memory = .ok () (store memory address data) :=
  (units_shows positive 1).run_setUnits memory address (Nat.zero_le data.length)

/-! ### The first unit -/

/-- How far into its unit an address is -/
def before (unitSize address : Nat) : Nat := address % unitSize

/-- The bytes of the unit from the address on -/
def beforeSize (unitSize address : Nat) : Nat := unitSize - before unitSize address

theorem before_lt (positive : 0 < unitSize) (address : Nat) :
    before unitSize address < unitSize := Nat.mod_lt address positive

theorem before_le (unitSize address : Nat) : before unitSize address ≤ address :=
  Nat.mod_le address unitSize

theorem before_add_beforeSize (positive : 0 < unitSize) (address : Nat) :
    before unitSize address + beforeSize unitSize address = unitSize :=
  Nat.add_sub_cancel' (Nat.le_of_lt (before_lt positive address))

/-- The address in front of which the first unit begins -/
def aligned (unitSize address : Nat) : Nat := address - before unitSize address

theorem aligned_add_before (unitSize address : Nat) :
    aligned unitSize address + before unitSize address = address :=
  Nat.sub_add_cancel (before_le unitSize address)

theorem address_mod (unitSize address : Nat) :
    (address : Int) % (unitSize : Nat) = (before unitSize address : Nat) :=
  (Int.natCast_emod address unitSize).symm

theorem address_sub_before (unitSize address : Nat) :
    (address : Int) - (before unitSize address : Nat) = (aligned unitSize address : Nat) :=
  (Int.ofNat_sub (before_le unitSize address)).symm

theorem unit_sub_before (positive : 0 < unitSize) (address : Nat) :
    (unitSize : Int) - (before unitSize address : Nat) = (beforeSize unitSize address : Nat) :=
  (Int.ofNat_sub (Nat.le_of_lt (before_lt positive address))).symm

/-- A read that has an alignment -/
theorem alignedRead_eq (wide : 1 < unitSize) (address size : Nat) :
    (units unitSize unitSize).read address size = (do
      let first ← (units unitSize unitSize).getter (aligned unitSize address : Nat)
      let data ← (units unitSize unitSize).getUnits
        (pyRange (address + beforeSize unitSize address : Nat)
          (address + size - ((size : Int) - beforeSize unitSize address) % unitSize) unitSize)
        (sliceFrom first (before unitSize address : Nat))
      (units unitSize unitSize).getRemainder address size
        (((size : Int) - beforeSize unitSize address) % unitSize) data) := by
  have wideInt : ¬ (unitSize : Int) = 1 := by omega
  have positive : 0 < unitSize := by omega
  rw [MemoryView.read]
  simp only [units, wideInt, if_false, address_mod, address_sub_before,
    unit_sub_before positive, Int.natCast_add]

/-- A write that has an alignment -/
theorem alignedWrite_eq (wide : 1 < unitSize) (address : Nat) (data : List Byte) :
    (units unitSize unitSize).write address data = (do
      let prevData ← (units unitSize unitSize).getter (aligned unitSize address : Nat)
      (units unitSize unitSize).setter (aligned unitSize address : Nat)
        (sliceTo prevData (beforeSize unitSize address : Nat) ++
          sliceTo data (before unitSize address : Nat))
      (units unitSize unitSize).setUnits address data
        (address + beforeSize unitSize address : Nat)
        (((data.length : Int) - beforeSize unitSize address) % unitSize)) := by
  have wideInt : ¬ (unitSize : Int) = 1 := by omega
  have positive : 0 < unitSize := by omega
  rw [MemoryView.write]
  simp only [units, wideInt, if_false, address_mod, address_sub_before,
    unit_sub_before positive, Int.natCast_add]

/-! ### Reads -/

theorem drop_firstUnit (positive : 0 < unitSize) (memory : Memory) (address : Nat) :
    (bytesAt memory (aligned unitSize address) unitSize).drop (before unitSize address) =
      bytesAt memory address (beforeSize unitSize address) := by
  have parts := drop_bytesAt memory (aligned unitSize address) (before unitSize address)
    (beforeSize unitSize address)
  rw [before_add_beforeSize positive, aligned_add_before] at parts
  exact parts

/-- A read that reaches the end of its first unit -/
theorem run_alignedRead_long (wide : 1 < unitSize) (memory : Memory)
    (long : beforeSize unitSize address ≤ size) :
    ((units unitSize unitSize).read address size).run memory =
      .ok (bytesAt memory address size) memory := by
  have positive : 0 < unitSize := Nat.lt_of_succ_lt wide
  have shows := units_shows positive (unitSize : Int)
  have rest := shows.run_readRest memory address long
    (bytesAt memory address (beforeSize unitSize address))
  rw [id_eq, ← bytesAt_add, Nat.add_sub_cancel' long] at rest
  rw [alignedRead_eq wide, EStateM.run_bind, shows.getter]
  simp only [sliceFrom_natCast, id_eq, drop_firstUnit positive]
  exact rest

/-- With nothing to be read between the first unit and the rest, the range is empty. -/
theorem pyRange_empty {start stop : Int} {unit : Nat} (positive : 0 < unit) (none : stop ≤ start) :
    pyRange start stop unit = [] := by
  have count : ((stop - start + unit - 1) / unit).toNat = 0 := by
    apply Int.toNat_of_nonpos
    apply Int.le_of_lt_add_one
    apply Int.ediv_lt_of_lt_mul
    · omega
    · omega
  rw [pyRange, count]
  rfl

/-- The remainder of what does not reach the end of the first unit -/
theorem short_mod (positive : 0 < unitSize) (short : size < beforeSize unitSize address) :
    ((size : Int) - beforeSize unitSize address) % unitSize =
      (size + before unitSize address : Nat) := by
  have whole := before_add_beforeSize positive address
  have shifted : (size : Int) - beforeSize unitSize address =
      (size + before unitSize address : Nat) - unitSize := by omega
  rw [shifted, Int.sub_emod_right, Int.emod_eq_of_lt (by omega) (by omega)]

/-- **A read within the first unit** returns the end of the unit and then its beginning, more
bytes than it was asked for. -/
theorem run_alignedRead_short (wide : 1 < unitSize) (memory : Memory)
    (short : size < beforeSize unitSize address) :
    ((units unitSize unitSize).read address size).run memory =
      .ok (bytesAt memory address (beforeSize unitSize address) ++
        bytesAt memory (aligned unitSize address) (size + before unitSize address)) memory := by
  have positive : 0 < unitSize := Nat.lt_of_succ_lt wide
  have shows := units_shows positive (unitSize : Int)
  have whole := before_add_beforeSize positive address
  have place : (address : Int) + size - (size + before unitSize address : Nat) =
      (aligned unitSize address : Nat) := by
    have split := aligned_add_before unitSize address
    omega
  have rest := shows.run_getRemainder memory place (by omega)
    (bytesAt memory address (beforeSize unitSize address))
  have none : (aligned unitSize address : Int) ≤ (address + beforeSize unitSize address : Nat) := by
    have split := aligned_add_before unitSize address
    omega
  rw [alignedRead_eq wide, EStateM.run_bind, shows.getter, short_mod positive short, place]
  simp only [sliceFrom_natCast, id_eq, drop_firstUnit positive, pyRange_empty positive none,
    MemoryView.getUnits, List.foldlM_nil, pure_bind]
  exact rest

/-! ### Writes -/

/-- What the first unit is replaced by: the data begins where the last bytes of the unit as many
as it has before the address would be, not at the address. -/
def misplaced (unitSize : Nat) (memory : Memory) (address : Nat) (data : List Byte) : Memory :=
  store memory (aligned unitSize address + beforeSize unitSize address)
    (data.take (before unitSize address))

/-- The first unit of a write is put together from the unit as it was, and the data. -/
theorem run_firstUnit (wide : 1 < unitSize) (memory : Memory) (address : Nat) (data : List Byte) :
    (do let prevData ← (units unitSize unitSize).getter (aligned unitSize address : Nat)
        (units unitSize unitSize).setter (aligned unitSize address : Nat)
          (sliceTo prevData (beforeSize unitSize address : Nat) ++
            sliceTo data (before unitSize address : Nat)) : EStateM Empty Memory Unit).run memory =
      .ok () (misplaced unitSize memory address data) := by
  have shows := units_shows (Nat.lt_of_succ_lt wide) (unitSize : Int)
  have short : beforeSize unitSize address ≤ unitSize := Nat.sub_le _ _
  have kept := store_append memory (aligned unitSize address)
    (bytesAt memory (aligned unitSize address) (beforeSize unitSize address))
    (data.take (before unitSize address))
  rw [store_bytesAt, length_bytesAt] at kept
  rw [EStateM.run_bind, shows.getter]
  simp only [sliceTo_natCast, id_eq, take_bytesAt _ _ short, run_unitSetter, kept]
  rfl

/-- A write that reaches the end of its first unit -/
theorem run_alignedWrite_long (wide : 1 < unitSize) (memory : Memory)
    (long : beforeSize unitSize address ≤ data.length) :
    ((units unitSize unitSize).write address data).run memory =
      .ok () (store (misplaced unitSize memory address data)
        (address + beforeSize unitSize address) (data.drop (beforeSize unitSize address))) := by
  have shows := units_shows (Nat.lt_of_succ_lt wide) (unitSize : Int)
  have first := run_firstUnit wide memory address data
  have rest := shows.run_setUnits (misplaced unitSize memory address data) address long
  rw [alignedWrite_eq wide, ← bind_assoc, EStateM.run_bind, first]
  exact rest

/-- The last bytes of the data, as many as the unit has before the address -/
theorem sliceFrom_last (data : List Byte) {count : Nat} (some : 0 < count) :
    sliceFrom data (data.length - (data.length + count : Nat)) =
      data.drop (data.length - count) := by
  have negative : (data.length : Int) - (data.length + count : Nat) < 0 := by omega
  have index : (data.length + ((data.length : Int) - (data.length + count : Nat))).toNat =
      data.length - count := by omega
  rw [sliceFrom, sliceIndex, if_pos negative, index]

/-- The memory after a write within the first unit: its end is taken for a remainder, and written
to the beginning of the unit. -/
def wrapped (unitSize : Nat) (memory : Memory) (address : Nat) (data : List Byte) : Memory :=
  store (misplaced unitSize memory address data) (aligned unitSize address)
    (data.drop (data.length - before unitSize address) ++
      bytesAt (misplaced unitSize memory address data) (address + data.length)
        (beforeSize unitSize address - data.length))

/-- The rest of a write within the first unit begins at the unit. -/
theorem setUnits_short (wide : 1 < unitSize) (short : data.length < beforeSize unitSize address) :
    (units unitSize unitSize).setUnits address data (address + beforeSize unitSize address : Nat)
        (((data.length : Int) - beforeSize unitSize address) % unitSize) =
      if ((data.length + before unitSize address : Nat) : Int) ≠ 0 then do
        let prevData ← (units unitSize unitSize).getter (aligned unitSize address : Nat)
        (units unitSize unitSize).setter (aligned unitSize address : Nat)
          (sliceFrom data (data.length - (data.length + before unitSize address : Nat)) ++
            sliceFrom prevData (data.length + before unitSize address : Nat))
      else pure () := by
  have positive : 0 < unitSize := Nat.lt_of_succ_lt wide
  have split := aligned_add_before unitSize address
  have place : (address : Int) + data.length - (data.length + before unitSize address : Nat) =
      (aligned unitSize address : Nat) := by omega
  have none : (aligned unitSize address : Int) ≤ (address + beforeSize unitSize address : Nat) := by
    omega
  have range := pyRange_empty positive none
  rw [MemoryView.setUnits, short_mod positive short, place]
  change (pyRange _ _ (unitSize : Int)).forM _ >>= _ = _
  rw [range, List.forM_eq_forM, List.forM_nil, pure_bind]

/-- A write within the first unit that does not begin with it -/
theorem run_alignedWrite_short (wide : 1 < unitSize) (memory : Memory)
    (short : data.length < beforeSize unitSize address) (inside : 0 < before unitSize address) :
    ((units unitSize unitSize).write address data).run memory =
      .ok () (wrapped unitSize memory address data) := by
  have positive : 0 < unitSize := Nat.lt_of_succ_lt wide
  have shows := units_shows positive (unitSize : Int)
  have first := run_firstUnit wide memory address data
  have whole := before_add_beforeSize positive address
  have split := aligned_add_before unitSize address
  have rest := drop_bytesAt (misplaced unitSize memory address data) (aligned unitSize address)
    (data.length + before unitSize address) (beforeSize unitSize address - data.length)
  have all : data.length + before unitSize address +
      (beforeSize unitSize address - data.length) = unitSize := by omega
  have place : aligned unitSize address + (data.length + before unitSize address) =
      address + data.length := by omega
  rw [all, place] at rest
  rw [alignedWrite_eq wide, ← bind_assoc, EStateM.run_bind, first]
  simp only [setUnits_short wide short]
  rw [if_pos (by omega), EStateM.run_bind, shows.getter]
  simp only [id_eq, sliceFrom_last data inside, sliceFrom_natCast, rest, run_unitSetter]
  rfl

/-- A write within the first unit from its beginning -/
theorem run_alignedWrite_start (wide : 1 < unitSize) (memory : Memory)
    (start : before unitSize address = 0) (short : data.length < unitSize) :
    ((units unitSize unitSize).write address data).run memory =
      .ok () (store memory address data) := by
  have positive : 0 < unitSize := Nat.lt_of_succ_lt wide
  have shows := units_shows positive (unitSize : Int)
  have first := run_firstUnit wide memory address data
  have same : misplaced unitSize memory address data = memory := by
    rw [misplaced, start, List.take_zero, store_nil]
  have whole : beforeSize unitSize address = unitSize := by rw [beforeSize, start, Nat.sub_zero]
  have place : aligned unitSize address = address := by rw [aligned, start, Nat.sub_zero]
  rw [alignedWrite_eq wide, ← bind_assoc, EStateM.run_bind, first, same]
  simp only [setUnits_short wide (whole.symm ▸ short), start, Nat.add_zero, place]
  by_cases none : data.length = 0
  · rw [if_neg (by omega), List.eq_nil_of_length_eq_zero none, store_nil]
    rfl
  · rw [if_pos (by omega)]
    have rest := shows.run_setRemainder memory address (Nat.le_of_lt short)
      (Nat.le_refl data.length)
    rw [Nat.sub_self, List.drop_zero] at rest
    exact rest

/-! ### Agreement -/

/-- A read with an alignment returns what the read without one does. -/
def ReadAgrees (unitSize : Nat) (memory : Memory) (address size : Nat) : Prop :=
  ((units unitSize unitSize).read address size).run memory =
    ((units unitSize 1).read address size).run memory

/-- A write with an alignment leaves the memory that the write without one does. -/
def WriteAgrees (unitSize : Nat) (memory : Memory) (address : Nat) (data : List Byte) : Prop :=
  ((units unitSize unitSize).write address data).run memory =
    ((units unitSize 1).write address data).run memory

/-- The address begins a unit that the write does not fill, or is in the middle of a unit whose
end the write reaches. -/
def Sound (unitSize address count : Nat) : Prop :=
  before unitSize address = 0 ∧ count < unitSize ∨
    2 * before unitSize address = unitSize ∧ beforeSize unitSize address ≤ count

/-- The bytes that go to the wrong places are the ones that should be there. -/
def Coincides (unitSize : Nat) (memory : Memory) (address : Nat) (data : List Byte) : Prop :=
  if beforeSize unitSize address ≤ data.length then
    misplaced unitSize memory address data =
      store memory address (data.take (beforeSize unitSize address))
  else
    0 < before unitSize address ∧
      wrapped unitSize memory address data = store memory address data

theorem readAgrees_iff (wide : 1 < unitSize) :
    ReadAgrees unitSize memory address size ↔ beforeSize unitSize address ≤ size := by
  have positive : 0 < unitSize := Nat.lt_of_succ_lt wide
  constructor
  · intro agrees
    by_contra short
    rw [ReadAgrees, run_alignedRead_short wide memory (Nat.not_le.mp short),
      run_unalignedRead positive] at agrees
    have data := (EStateM.Result.ok.inj agrees).1
    have lengths := congrArg List.length data
    have whole := before_add_beforeSize positive address
    rw [List.length_append, length_bytesAt, length_bytesAt, length_bytesAt] at lengths
    omega
  · intro long
    exact (run_alignedRead_long wide memory long).trans (run_unalignedRead positive _ _ _).symm

/-- The first unit decides what a write that reaches its end leaves. -/
theorem longWrite_agrees_iff (positive : 0 < unitSize)
    (long : beforeSize unitSize address ≤ data.length) :
    store (misplaced unitSize memory address data) (address + beforeSize unitSize address)
        (data.drop (beforeSize unitSize address)) = store memory address data ↔
      misplaced unitSize memory address data =
        store memory address (data.take (beforeSize unitSize address)) := by
  have head : (data.take (beforeSize unitSize address)).length = beforeSize unitSize address := by
    rw [List.length_take, Nat.min_eq_left long]
  have both := store_append memory address (data.take (beforeSize unitSize address))
    (data.drop (beforeSize unitSize address))
  rw [List.take_append_drop, head] at both
  rw [both]
  constructor
  · intro same
    funext x
    by_cases first : x < address + beforeSize unitSize address
    · have here := congrFun same x
      rw [store_outside (.inl first), store_outside (.inl first)] at here
      exact here
    · have whole := before_add_beforeSize positive address
      have split := aligned_add_before unitSize address
      have few : (data.take (before unitSize address)).length ≤ before unitSize address :=
        List.length_take_le _ _
      rw [misplaced, store_outside (.inr (by omega)), store_outside (.inr (by omega))]
  · intro same
    rw [same]

/-- In the middle of a unit its two parts are of one size, and the data is in its place. -/
theorem misplaced_of_middle (positive : 0 < unitSize)
    (middle : 2 * before unitSize address = unitSize) :
    misplaced unitSize memory address data =
      store memory address (data.take (beforeSize unitSize address)) := by
  have whole := before_add_beforeSize positive address
  have split := aligned_add_before unitSize address
  have even : beforeSize unitSize address = before unitSize address := by omega
  rw [misplaced, even, split]

theorem writeAgrees_iff (wide : 1 < unitSize) :
    WriteAgrees unitSize memory address data ↔
      Sound unitSize address data.length ∨ Coincides unitSize memory address data := by
  have positive : 0 < unitSize := Nat.lt_of_succ_lt wide
  have whole := before_add_beforeSize positive address
  rw [WriteAgrees, run_unalignedWrite positive, Coincides]
  by_cases long : beforeSize unitSize address ≤ data.length
  · rw [run_alignedWrite_long wide memory long, if_pos long, EStateM.Result.ok.injEq,
      eq_self_iff_true, true_and, longWrite_agrees_iff positive long]
    constructor
    · exact .inr
    · rintro ((⟨start, short⟩ | ⟨middle, _⟩) | same)
      · omega
      · exact misplaced_of_middle positive middle
      · exact same
  · rw [if_neg long]
    by_cases start : before unitSize address = 0
    · have short : data.length < unitSize := by omega
      rw [run_alignedWrite_start wide memory start short, eq_self_iff_true, true_iff]
      exact .inl (.inl ⟨start, short⟩)
    · have inside : 0 < before unitSize address := Nat.pos_of_ne_zero start
      rw [run_alignedWrite_short wide memory (Nat.not_le.mp long) inside, EStateM.Result.ok.injEq,
        eq_self_iff_true, true_and]
      constructor
      · intro same
        exact .inr ⟨inside, same⟩
      · rintro ((⟨none, _⟩ | ⟨_, reached⟩) | ⟨_, same⟩)
        · exact absurd none start
        · exact absurd reached long
        · exact same

/-! ### Whatever the bytes are -/

/-- A memory of zeros, with ones stored in it -/
theorem store_ones (start count x : Nat) :
    store (fun _ => 0) start (List.replicate count 1) x =
      if start ≤ x ∧ x < start + count then 1 else 0 := by
  by_cases inside : start ≤ x ∧ x < start + count
  · obtain ⟨i, rfl⟩ := Nat.exists_eq_add_of_le inside.1
    have bound : i < (List.replicate count (1 : Byte)).length := by
      rw [List.length_replicate]
      omega
    rw [if_pos inside, store_inside bound, List.getElem_replicate]
  · rw [if_neg inside, store_outside]
    rw [List.length_replicate]
    omega

/-- Data of ones that reaches the end of the first unit shows where one of the two places
begins. -/
theorem ones_misplaced (positive : 0 < unitSize) {count : Nat}
    (long : beforeSize unitSize address ≤ count) (unsound : ¬ Sound unitSize address count) :
    misplaced unitSize (fun _ => 0) address (List.replicate count 1) ≠
      store (fun _ => 0) address
        ((List.replicate count 1).take (beforeSize unitSize address)) := by
  have whole := before_add_beforeSize positive address
  have split := aligned_add_before unitSize address
  have bound := before_lt positive address
  have uneven : before unitSize address ≠ beforeSize unitSize address := by
    intro even
    exact unsound (.inr ⟨by omega, long⟩)
  intro same
  rw [misplaced, List.take_replicate, List.take_replicate] at same
  rcases Nat.lt_or_gt_of_ne uneven with less | more
  · have here := congrFun same address
    rw [store_ones, store_ones, if_neg (by omega), if_pos (by omega)] at here
    exact absurd here (by decide)
  · have here := congrFun same (aligned unitSize address + beforeSize unitSize address)
    rw [store_ones, store_ones, if_pos (by omega), if_neg (by omega)] at here
    exact absurd here (by decide)

/-- Data of ones within a unit shows at the beginning of the unit. -/
theorem ones_wrapped {count : Nat} (some : 0 < count) (inside : 0 < before unitSize address) :
    wrapped unitSize (fun _ => 0) address (List.replicate count 1) ≠
      store (fun _ => 0) address (List.replicate count 1) := by
  have split := aligned_add_before unitSize address
  intro same
  have here := congrFun same (aligned unitSize address + 0)
  rw [store_ones, if_neg (by omega), wrapped, List.drop_replicate, List.length_replicate,
    store_append, store_outside (.inl (by rw [List.length_replicate]; omega)),
    store_inside (by rw [List.length_replicate]; omega), List.getElem_replicate] at here
  exact absurd here (by decide)

/-- A memory with one byte that is not zero -/
def mark (place : Nat) : Memory := fun x => if x = place then 1 else 0

/-- Even to write nothing moves the end of a unit to its beginning. -/
theorem mark_wrapped (positive : 0 < unitSize) (inside : 0 < before unitSize address) :
    wrapped unitSize (mark address) address [] ≠ store (mark address) address [] := by
  have split := aligned_add_before unitSize address
  have bound := before_lt positive address
  have whole := before_add_beforeSize positive address
  intro same
  have moved : misplaced unitSize (mark address) address [] = mark address := by
    rw [misplaced, List.take_nil, store_nil]
  have here := congrFun same (aligned unitSize address + 0)
  rw [store_nil, wrapped, moved, List.drop_nil, List.nil_append,
    store_inside (by rw [length_bytesAt, List.length_nil]; omega)] at here
  have one : mark address (address + 0) = 1 := if_pos (Nat.add_zero address)
  have zero : mark address (aligned unitSize address + 0) = 0 := if_neg (by omega)
  simp only [bytesAt, List.getElem_map, List.getElem_range, List.length_nil, Nat.add_zero] at here
  rw [Nat.add_zero] at one zero
  rw [one, zero] at here
  exact absurd here (by decide)

/-- **Beside the sound ones, every place and length has a memory and data that betray it.** -/
theorem sound_of_writeAgrees (wide : 1 < unitSize) {count : Nat}
    (agrees : ∀ (memory : Memory) (data : List Byte), data.length = count →
      WriteAgrees unitSize memory address data) : Sound unitSize address count := by
  have positive : 0 < unitSize := Nat.lt_of_succ_lt wide
  have whole := before_add_beforeSize positive address
  have ones : (List.replicate count (1 : Byte)).length = count := List.length_replicate
  by_contra unsound
  rcases (writeAgrees_iff wide).mp (agrees (fun _ => 0) _ ones) with sound | same
  · exact unsound (ones ▸ sound)
  · by_cases long : beforeSize unitSize address ≤ count
    · rw [Coincides, ones, if_pos long] at same
      exact ones_misplaced positive long unsound same
    · rw [Coincides, ones, if_neg long] at same
      rcases Nat.eq_zero_or_pos count with none | some
      · rcases (writeAgrees_iff wide).mp (agrees (mark address) [] none.symm) with sound | same
        · exact unsound (none ▸ sound)
        · rw [Coincides, List.length_nil, if_neg (none ▸ long)] at same
          exact mark_wrapped positive same.1 same.2
      · exact ones_wrapped some same.1 same.2

/-- **An alignment leaves the bytes of a read and the memory after a write as they are** where
the read reaches the end of its first unit, and the write is a sound one or goes wrong unseen.
Only what is said of the sizes does for every memory and all data. -/
theorem aligned_agrees_iff (wide : 1 < unitSize) (memory : Memory) (address size : Nat)
    (data : List Byte) :
    (ReadAgrees unitSize memory address size ∧ WriteAgrees unitSize memory address data ↔
      beforeSize unitSize address ≤ size ∧
        (Sound unitSize address data.length ∨ Coincides unitSize memory address data)) ∧
    ((∀ (other : Memory) (bytes : List Byte), bytes.length = data.length →
        ReadAgrees unitSize other address size ∧ WriteAgrees unitSize other address bytes) ↔
      beforeSize unitSize address ≤ size ∧ Sound unitSize address data.length) := by
  constructor
  · rw [readAgrees_iff wide, writeAgrees_iff wide]
  · constructor
    · intro agrees
      constructor
      · exact (readAgrees_iff wide).mp (agrees memory data rfl).1
      · apply sound_of_writeAgrees wide
        intro other bytes same
        exact (agrees other bytes same).2
    · rintro ⟨long, sound⟩ other bytes same
      constructor
      · exact (readAgrees_iff wide).mpr long
      · exact (writeAgrees_iff wide).mpr (.inl (same ▸ sound))

/-- Four bytes from the middle of a unit of eight on -/
theorem middle_agrees :
    (ReadAgrees 8 (mark 0) 4 4 ∧ WriteAgrees 8 (mark 0) 4 [1, 2, 3, 4] ↔
      beforeSize 8 4 ≤ 4 ∧
        (Sound 8 4 [1, 2, 3, 4].length ∨ Coincides 8 (mark 0) 4 [1, 2, 3, 4])) ∧
    ((∀ (other : Memory) (bytes : List Byte), bytes.length = [1, 2, 3, 4].length →
        ReadAgrees 8 other 4 4 ∧ WriteAgrees 8 other 4 bytes) ↔
      beforeSize 8 4 ≤ 4 ∧ Sound 8 4 [1, 2, 3, 4].length) :=
  aligned_agrees_iff (by decide) (mark 0) 4 4 [1, 2, 3, 4]

/-- Three bytes at the beginning of a unit are read as eleven, and a unit of ones is not written
to a memory of zeros. -/
theorem aligned_disagrees :
    (¬ ∀ unitSize > 1, ∀ (memory : Memory) (address size : Nat),
      ReadAgrees unitSize memory address size) ∧
    ¬ ∀ unitSize > 1, ∀ (memory : Memory) (address : Nat) (data : List Byte),
      WriteAgrees unitSize memory address data := by
  constructor
  · intro agrees
    have long := (readAgrees_iff (by decide)).mp (agrees 8 (by decide) (fun _ => 0) 0 3)
    exact absurd long (by decide)
  · intro agrees
    have sound : Sound 8 0 8 := by
      apply sound_of_writeAgrees (by decide)
      intro memory data _
      exact agrees 8 (by decide) memory 0 data
    rcases sound with ⟨_, short⟩ | ⟨middle, _⟩
    · exact absurd short (by decide)
    · exact absurd middle (by decide)

end Libdebug.Data.AlignedAccess
