import Mathlib.Algebra.Group.Nat.Defs
import Libdebug.Data.MemoryView

/-!
Words of the process that may not be readable or writable. The C layer hands the result of
`ptrace` over as an unsigned number of 64 bits, and that it failed with: a read is checked by
`errno`, a write by a comparison of the result with -1, which no unsigned number is equal to.
-/

namespace Libdebug.Data

open Libdebug.Foundation

inductive AccessError where
  | osError (errno : Nat)
  | valueError (message : String)
  | typeError
  | overflowError
  | indexError
  deriving DecidableEq, Repr

/-- At which addresses `PTRACE_PEEKDATA` and `PTRACE_POKEDATA` succeed, and the error they fail
with. -/
structure Access where
  readable : Nat → Bool
  writable : Nat → Bool
  errno : Nat
  errno_ne_zero : errno ≠ 0

/-- What an access does to the memory of the stopped process -/
abbrev Accessing := EStateM AccessError Memory

variable (p : Access)

/-! ### The C layer -/

/-- -1 as the functions return it -/
def failure : Word := BitVec.ofInt 64 (-1)

/-- `ptrace_peekdata`, and `errno` after it -/
def ptracePeekdata (mem : Memory) (addr : Nat) : Word × Nat :=
  if p.readable addr then (peekWord mem addr, 0) else (failure, p.errno)

/-- `ptrace_pokedata`, and the memory after it -/
def ptracePokedata (mem : Memory) (addr : Nat) (data : Word) : Word × Memory :=
  if p.writable addr then (0, pokeWord mem addr data) else (failure, mem)

/-! ### The Python layer -/

/-- An argument of the type `uint64_t` -/
def uint64 (value : Int) : Accessing Nat :=
  if 0 ≤ value ∧ value.toNat < 2 ^ 64 then pure value.toNat else throw .overflowError

def peekMemory (address : Int) : Accessing Nat := do
  let addr ← uint64 address
  let mem ← get
  let peeked := ptracePeekdata p mem addr
  if peeked.2 ≠ 0 then throw (.osError peeked.2)
  else pure peeked.1.toNat

/-- `if result == -1: raise OSError(...)` -/
def checkResult (result : Word) : Accessing Unit :=
  if (result.toNat : Int) = -1 then throw (.osError p.errno) else pure ()

def pokeMemory (address value : Int) : Accessing Unit := do
  let addr ← uint64 address
  let data ← uint64 value
  let mem ← get
  let poked := ptracePokedata p mem addr (BitVec.ofNat 64 data)
  set poked.2
  checkResult p poked.1

/-- The `memory` of `InternalDebugger` -/
def ptraceMemory : MemoryView Accessing where
  getter address := do
    let value ← peekMemory p address
    pure (toBytes (BitVec.ofNat 64 value))
  setter address data := pokeMemory p address (fromBytes data).toNat

variable {p} {mem : Memory} {address : Nat} {data : List Byte}

theorem checkResult_eq (result : Word) : checkResult p result = pure () :=
  if_neg (by omega)

theorem uint64_natCast (inside : address < 2 ^ 64) : uint64 (address : Int) = pure address := by
  rw [uint64, if_pos (by omega), Int.toNat_natCast]

theorem run_peekMemory (p : Access) (mem : Memory) (inside : address < 2 ^ 64) :
    (peekMemory p address).run mem =
      if p.readable address then .ok (peekWord mem address).toNat mem
      else .error (.osError p.errno) mem := by
  have unfolded : (peekMemory p address).run mem =
      (if (ptracePeekdata p mem address).2 ≠ 0 then
        throw (.osError (ptracePeekdata p mem address).2)
      else pure (ptracePeekdata p mem address).1.toNat : Accessing Nat).run mem := by
    rw [peekMemory, uint64_natCast inside, pure_bind, EStateM.run_bind, EStateM.run_get]
  rw [unfolded, ptracePeekdata]
  cases p.readable address with
  | true =>
      rw [if_pos rfl, if_pos rfl, if_neg (not_not.mpr rfl)]
      rfl
  | false =>
      rw [if_neg Bool.false_ne_true, if_neg Bool.false_ne_true, if_pos p.errno_ne_zero]
      rfl

/-- The memory after a write of a word: a write that is rejected leaves it as it was. -/
def poked (p : Access) (mem : Memory) (address : Nat) (data : List Byte) : Memory :=
  if p.writable address then store mem address data else mem

/-- No write of a word raises. -/
theorem run_pokeMemory (p : Access) (mem : Memory) (value : Word) (inside : address < 2 ^ 64) :
    (pokeMemory p address value.toNat).run mem =
      .ok () (ptracePokedata p mem address value).2 := by
  have same : BitVec.ofNat 64 value.toNat = value := BitVec.ofNat_toNat 64 value
  rw [pokeMemory, uint64_natCast inside, uint64_natCast value.isLt, pure_bind, pure_bind]
  simp only [checkResult_eq, same]
  rfl

theorem run_ptraceGetter (p : Access) (mem : Memory) (inside : address < 2 ^ 64) :
    ((ptraceMemory p).getter address).run mem =
      if p.readable address then .ok (bytesAt mem address 8) mem
      else .error (.osError p.errno) mem := by
  have peeked := run_peekMemory p mem inside
  change (peekMemory p address >>= fun value => pure (toBytes (BitVec.ofNat 64 value))).run mem = _
  rw [EStateM.run_bind, peeked]
  cases p.readable address with
  | true =>
      rw [if_pos rfl, if_pos rfl, ← toBytes_peekWord]
      simp only [EStateM.run_pure, BitVec.ofNat_toNat, BitVec.setWidth_eq]
  | false => rw [if_neg Bool.false_ne_true, if_neg Bool.false_ne_true]

theorem run_ptraceSetter (p : Access) (mem : Memory) (inside : address < 2 ^ 64)
    (eight : data.length = 8) :
    ((ptraceMemory p).setter address data).run mem = .ok () (poked p mem address data) := by
  have written := run_pokeMemory p mem (fromBytes data) inside
  rw [ptraceMemory]
  rw [ptracePokedata] at written
  rw [written, poked, ← pokeWord_fromBytes mem address eight]
  split <;> rfl

/-! ### Reads -/

/-- The full words of a run of bytes end where the part that is left begins. -/
theorem end_of_words (address size : Nat) :
    (address : Int) + size - (size : Int) % 8 = address + (8 * (size / 8) : Nat) := by
  omega

/-- All words of a read, the one at its end included, can be read. -/
abbrev AllReadable (p : Access) (address size : Nat) : Prop :=
  ∀ i < (size + 7) / 8, p.readable (address + 8 * i) = true

theorem run_getUnits_ptrace (p : Access) (mem : Memory) (address units : Nat)
    (inside : address + 8 * units < 2 ^ 64 + 8) :
    ((ptraceMemory p).getUnits (pyRange address (address + (8 * units : Nat))
        (ptraceMemory p).unitSize) []).run mem =
      if ∀ i < units, p.readable (address + 8 * i) = true
      then .ok (bytesAt mem address (8 * units)) mem else .error (.osError p.errno) mem := by
  have range : pyRange address (address + (8 * units : Nat)) (ptraceMemory p).unitSize =
      (List.range units).map fun i => ((address + 8 * i : Nat) : Int) :=
    pyRange_units address units 8 (by decide)
  rw [range, MemoryView.getUnits]
  clear range
  induction units with
  | zero => rfl
  | succ units ih =>
      have bound : address + 8 * units < 2 ^ 64 := by omega
      have got := run_ptraceGetter p mem bound
      rw [List.range_succ, List.map_append, List.foldlM_append, EStateM.run_bind, ih (by omega)]
      by_cases before : ∀ i < units, p.readable (address + 8 * i) = true
      · rw [if_pos before]
        simp only [List.map_cons, List.map_nil, List.foldlM_cons, List.foldlM_nil, bind_pure,
          EStateM.run_bind, got]
        by_cases last : p.readable (address + 8 * units) = true
        · have all : ∀ i < units + 1, p.readable (address + 8 * i) = true :=
            Nat.forall_lt_succ_right.mpr ⟨before, last⟩
          rw [if_pos last, if_pos all, Nat.mul_succ, bytesAt_add]
          rfl
        · have some : ¬ ∀ i < units + 1, p.readable (address + 8 * i) = true := fun all =>
            last (all units (Nat.lt_succ_self units))
          rw [if_neg last, if_neg some]
      · have some : ¬ ∀ i < units + 1, p.readable (address + 8 * i) = true := fun all =>
          before fun i earlier => all i (by omega)
        rw [if_neg before, if_neg some]

theorem run_getRemainder_ptrace (p : Access) (mem : Memory) (address size : Nat)
    (data : List Byte) (inside : address + 8 * ((size + 7) / 8) < 2 ^ 64 + 8) :
    ((ptraceMemory p).getRemainder address size ((size : Int) % 8) data).run mem =
      if size % 8 = 0 ∨ p.readable (address + 8 * (size / 8)) = true
      then .ok (data ++ bytesAt mem (address + 8 * (size / 8)) (size % 8)) mem
      else .error (.osError p.errno) mem := by
  unfold MemoryView.getRemainder
  by_cases full : size % 8 = 0
  · rw [if_neg (by omega), if_pos (.inl full), full, bytesAt_zero, List.append_nil]
    rfl
  · have place : (address : Int) + size - (size : Int) % 8 =
        ((address + 8 * (size / 8) : Nat) : Int) := by omega
    have bound : address + 8 * (size / 8) < 2 ^ 64 := by omega
    have got := run_ptraceGetter p mem bound
    have cut : sliceTo (bytesAt mem (address + 8 * (size / 8)) 8) ((size : Int) % 8) =
        bytesAt mem (address + 8 * (size / 8)) (size % 8) := by
      have natural : (size : Int) % 8 = (size % 8 : Nat) := by omega
      rw [natural, sliceTo_natCast, take_bytesAt _ _ (by omega)]
    rw [if_pos (by omega), place, EStateM.run_bind, got]
    by_cases last : p.readable (address + 8 * (size / 8)) = true
    · rw [if_pos last, if_pos (.inr last)]
      simp only [cut, EStateM.run_pure]
    · have neither : ¬ (size % 8 = 0 ∨ p.readable (address + 8 * (size / 8)) = true) :=
        not_or.mpr ⟨full, last⟩
      rw [if_neg last, if_neg neither]

theorem allReadable_iff {size : Nat} : AllReadable p address size ↔
    (∀ i < size / 8, p.readable (address + 8 * i) = true) ∧
      (size % 8 = 0 ∨ p.readable (address + 8 * (size / 8)) = true) := by
  constructor
  · intro all
    refine ⟨fun i before => all i (by omega), ?_⟩
    by_cases full : size % 8 = 0
    · exact .inl full
    · exact .inr (all (size / 8) (by omega))
  · rintro ⟨units, last⟩ i inside
    by_cases before : i < size / 8
    · exact units i before
    · obtain rfl : i = size / 8 := by omega
      exact last.resolve_left (by omega)

/-- A read returns the bytes that are there if all its words can be read, and raises
otherwise. -/
theorem run_read_ptrace (p : Access) (mem : Memory) (address size : Nat)
    (inside : address + 8 * ((size + 7) / 8) < 2 ^ 64 + 8) :
    ((ptraceMemory p).read address size).run mem =
      if AllReadable p address size then .ok (bytesAt mem address size) mem
      else .error (.osError p.errno) mem := by
  have units := run_getUnits_ptrace p mem address (size / 8) (by omega)
  rw [← end_of_words] at units
  have rest := run_getRemainder_ptrace p mem address size
    (bytesAt mem address (8 * (size / 8))) inside
  rw [← bytesAt_add, Nat.div_add_mod] at rest
  have unfolded : (ptraceMemory p).read address size = (do
      let data ← (ptraceMemory p).getUnits (pyRange address (address + size - (size : Int) % 8)
        (ptraceMemory p).unitSize) []
      (ptraceMemory p).getRemainder address size ((size : Int) % 8) data) := rfl
  rw [unfolded, EStateM.run_bind, units]
  by_cases full : ∀ i < size / 8, p.readable (address + 8 * i) = true
  · rw [if_pos full]
    refine rest.trans ?_
    simp only [allReadable_iff, and_iff_right full]
  · have some : ¬ AllReadable p address size := fun all => full (allReadable_iff.mp all).1
    rw [if_neg full, if_neg some]

/-! ### Writes -/

/-- The memory after the full units of a write: each is there if its word can be written. -/
def pokedUnits (p : Access) (mem : Memory) (address : Nat) (data : List Byte) : Nat → Memory
  | 0 => mem
  | units + 1 =>
      poked p (pokedUnits p mem address data units) (address + 8 * units)
        ((data.drop (8 * units)).take 8)

theorem run_setUnits_ptrace (p : Access) (mem : Memory) (address : Nat) (data : List Byte)
    (units : Nat) (inside : address + 8 * units < 2 ^ 64 + 8) (full : 8 * units ≤ data.length) :
    ((pyRange address (address + (8 * units : Nat)) (ptraceMemory p).unitSize).forM
      ((ptraceMemory p).setUnit address data)).run mem =
        .ok () (pokedUnits p mem address data units) := by
  have range : pyRange address (address + (8 * units : Nat)) (ptraceMemory p).unitSize =
      (List.range units).map fun i => ((address + 8 * i : Nat) : Int) :=
    pyRange_units address units 8 (by decide)
  rw [range]
  clear range
  induction units with
  | zero => rfl
  | succ units ih =>
      have next : slice data (8 * units : Nat) ((8 * units : Nat) + (ptraceMemory p).unitSize) =
          (data.drop (8 * units)).take 8 := slice_natCast data (8 * units) 8
      have eight : ((data.drop (8 * units)).take 8).length = 8 := by
        rw [List.length_take, List.length_drop]
        omega
      have index : ((address + 8 * units : Nat) : Int) - address = (8 * units : Nat) := by omega
      have last : ((ptraceMemory p).setUnit address data (address + 8 * units : Nat)).run
          (pokedUnits p mem address data units) =
            .ok () (pokedUnits p mem address data (units + 1)) := by
        rw [MemoryView.setUnit, index, next]
        exact run_ptraceSetter p _ (by omega) eight
      have before := ih (by omega) (by omega)
      rw [List.forM_eq_forM] at before ⊢
      rw [List.range_succ, List.map_append, List.forM_append, EStateM.run_bind, before]
      simp only [List.map_cons, List.map_nil, List.forM_cons, List.forM_nil, bind_pure_unit, last]

/-- The memory after a write that returns. The part of a unit that is left is written with the
bytes that follow it. -/
def written (p : Access) (mem : Memory) (address : Nat) (data : List Byte) : Memory :=
  if data.length % 8 = 0 then pokedUnits p mem address data (data.length / 8)
  else poked p (pokedUnits p mem address data (data.length / 8)) (address + 8 * (data.length / 8))
    (data.drop (8 * (data.length / 8)) ++
      bytesAt (pokedUnits p mem address data (data.length / 8))
        (address + 8 * (data.length / 8) + data.length % 8) (8 - data.length % 8))

/-- The last part of a write, on the memory that its full units have left. -/
theorem run_setRemainder_ptrace (p : Access) (m : Memory) (address : Nat) (data : List Byte)
    (inside : address + 8 * ((data.length + 7) / 8) < 2 ^ 64 + 8) (left : data.length % 8 ≠ 0) :
    (do let prevData ← (ptraceMemory p).getter (address + data.length - (data.length : Int) % 8)
        (ptraceMemory p).setter (address + data.length - (data.length : Int) % 8)
          (sliceFrom data (data.length - (data.length : Int) % 8) ++
            sliceFrom prevData ((data.length : Int) % 8)) : Accessing Unit).run m =
      if p.readable (address + 8 * (data.length / 8)) = true then
        .ok () (poked p m (address + 8 * (data.length / 8)) (data.drop (8 * (data.length / 8)) ++
          bytesAt m (address + 8 * (data.length / 8) + data.length % 8) (8 - data.length % 8)))
      else .error (.osError p.errno) m := by
  have place : (address : Int) + data.length - (data.length : Int) % 8 =
      ((address + 8 * (data.length / 8) : Nat) : Int) := by omega
  have bound : address + 8 * (data.length / 8) < 2 ^ 64 := by omega
  have got := run_ptraceGetter p m bound
  have rest : sliceFrom data (data.length - (data.length : Int) % 8) =
      data.drop (8 * (data.length / 8)) := by
    have start : (data.length : Int) - (data.length : Int) % 8 =
        (8 * (data.length / 8) : Nat) := by omega
    rw [start, sliceFrom_natCast]
  have kept : sliceFrom (bytesAt m (address + 8 * (data.length / 8)) 8) ((data.length : Int) % 8) =
      bytesAt m (address + 8 * (data.length / 8) + data.length % 8) (8 - data.length % 8) := by
    have start : (data.length : Int) % 8 = (data.length % 8 : Nat) := by omega
    have parts : bytesAt m (address + 8 * (data.length / 8)) 8 =
        bytesAt m (address + 8 * (data.length / 8))
          (data.length % 8 + (8 - data.length % 8)) := by
      congr 1
      omega
    rw [start, sliceFrom_natCast, parts]
    exact drop_bytesAt _ _ _ _
  have eight : (data.drop (8 * (data.length / 8)) ++
      bytesAt m (address + 8 * (data.length / 8) + data.length % 8)
        (8 - data.length % 8)).length = 8 := by
    rw [List.length_append, List.length_drop, length_bytesAt]
    omega
  rw [place, EStateM.run_bind, got]
  by_cases readable : p.readable (address + 8 * (data.length / 8)) = true
  · rw [if_pos readable, if_pos readable]
    simp only [rest, kept]
    exact run_ptraceSetter p m bound eight
  · rw [if_neg readable, if_neg readable]

/-- A write raises only if the unit at its end is read before it is written, and cannot be. -/
theorem run_write_ptrace (p : Access) (mem : Memory) (address : Nat) (data : List Byte)
    (inside : address + 8 * ((data.length + 7) / 8) < 2 ^ 64 + 8) :
    ((ptraceMemory p).write address data).run mem =
      if data.length % 8 = 0 ∨ p.readable (address + 8 * (data.length / 8)) = true
      then .ok () (written p mem address data)
      else .error (.osError p.errno) (pokedUnits p mem address data (data.length / 8)) := by
  have loop := run_setUnits_ptrace p mem address data (data.length / 8) (by omega) (by omega)
  rw [← end_of_words] at loop
  have unfolded : (ptraceMemory p).write address data =
      (ptraceMemory p).setUnits address data address ((data.length : Int) % 8) := rfl
  rw [unfolded, MemoryView.setUnits, EStateM.run_bind, loop]
  by_cases full : data.length % 8 = 0
  · have none : ¬ (data.length : Int) % 8 ≠ 0 := by omega
    rw [if_neg none, if_pos (.inl full), written, if_pos full]
    rfl
  · have tail := run_setRemainder_ptrace p
      (pokedUnits p mem address data (data.length / 8)) address data inside full
    rw [if_pos (by omega)]
    refine tail.trans ?_
    simp only [full, false_or, written, if_false]

theorem pokedUnits_eq_store {units : Nat} (full : 8 * units ≤ data.length)
    (writable : ∀ i < units, p.writable (address + 8 * i) = true) :
    pokedUnits p mem address data units = store mem address (data.take (8 * units)) := by
  induction units with
  | zero => rw [pokedUnits, Nat.mul_zero, List.take_zero, store_nil]
  | succ units ih =>
      have before : (data.take (8 * units)).length = 8 * units := by
        rw [List.length_take]
        omega
      rw [pokedUnits, poked, if_pos (writable units (Nat.lt_succ_self units)),
        ih (by omega) fun i earlier => writable i (by omega), Nat.mul_succ, List.take_add,
        store_append, before]

/-- Where all its words can be written, a write stores its data and nothing else. -/
theorem written_eq_store
    (writable : ∀ i < (data.length + 7) / 8, p.writable (address + 8 * i) = true) :
    written p mem address data = store mem address data := by
  have units : pokedUnits p mem address data (data.length / 8) =
      store mem address (data.take (8 * (data.length / 8))) :=
    pokedUnits_eq_store (by omega) fun i inside => writable i (by omega)
  rw [written, units]
  by_cases full : data.length % 8 = 0
  · rw [if_pos full, List.take_of_length_le (by omega)]
  · have head : (data.take (8 * (data.length / 8))).length = 8 * (data.length / 8) := by
      rw [List.length_take]
      omega
    have tail : (data.drop (8 * (data.length / 8))).length = data.length % 8 := by
      rw [List.length_drop]
      omega
    have whole := store_append mem address (data.take (8 * (data.length / 8)))
      (data.drop (8 * (data.length / 8)))
    rw [List.take_append_drop, head] at whole
    have kept := store_append_kept (store mem address (data.take (8 * (data.length / 8))))
      (address + 8 * (data.length / 8)) (data.drop (8 * (data.length / 8))) (8 - data.length % 8)
    rw [tail] at kept
    rw [if_neg full, poked, if_pos (writable (data.length / 8) (by omega)), whole]
    exact kept

/-! ### Addresses that do not fit -/

/-- The address is one of 64 bits. -/
abbrev Fits (x : Int) : Prop := 0 ≤ x ∧ x.toNat < 2 ^ 64

/-- The words of so many bytes have addresses of 64 bits. -/
abbrev WordsFit (address : Int) (size : Nat) : Prop :=
  size = 0 ∨ (0 ≤ address ∧ address.toNat + 8 * ((size + 7) / 8) < 2 ^ 64 + 8)

theorem run_ptraceGetter_overflow (p : Access) (mem : Memory) {x : Int} (outside : ¬ Fits x) :
    ((ptraceMemory p).getter x).run mem = .error .overflowError mem := by
  have raised : uint64 x = throw .overflowError := if_neg outside
  change (uint64 x >>= _ >>= _ : Accessing (List Byte)).run mem = _
  rw [raised]
  rfl

/-- A write of a word raises if and only if its address does not fit. -/
theorem run_ptraceSetter_fits (p : Access) (mem : Memory) (bytes : List Byte) {x : Int} :
    ∃ m, ((ptraceMemory p).setter x bytes).run mem =
      if Fits x then .ok () m else .error .overflowError m := by
  by_cases fits : Fits x
  · have written := run_pokeMemory p mem (fromBytes bytes) fits.2
    rw [Int.toNat_of_nonneg fits.1] at written
    exact ⟨_, written.trans (if_pos fits).symm⟩
  · have raised : uint64 x = throw .overflowError := if_neg fits
    refine ⟨mem, ?_⟩
    change (uint64 x >>= _ : Accessing Unit).run mem = _
    rw [raised, if_neg fits]
    rfl

theorem run_setUnits_fits (p : Access) (mem : Memory) (address : Int) (data : List Byte)
    (addresses : List Int) :
    ∃ m, (addresses.forM ((ptraceMemory p).setUnit address data)).run mem =
      if ∀ x ∈ addresses, Fits x then .ok () m else .error .overflowError m := by
  induction addresses generalizing mem with
  | nil => exact ⟨mem, (if_pos (by simp)).symm⟩
  | cons x rest ih =>
      obtain ⟨first, wrote⟩ := run_ptraceSetter_fits p mem
        (slice data (x - address) (x - address + (ptraceMemory p).unitSize)) (x := x)
      change ((ptraceMemory p).setUnit address data x).run mem = _ at wrote
      have unfolded : (x :: rest).forM ((ptraceMemory p).setUnit address data) = (do
          (ptraceMemory p).setUnit address data x
          rest.forM ((ptraceMemory p).setUnit address data)) := rfl
      by_cases fits : Fits x
      · obtain ⟨last, wroteRest⟩ := ih first
        refine ⟨last, ?_⟩
        have same : (∀ y ∈ x :: rest, Fits y) ↔ ∀ y ∈ rest, Fits y :=
          List.forall_mem_cons.trans (and_iff_right fits)
        rw [unfolded, EStateM.run_bind, wrote, if_pos fits]
        simp only [wroteRest, same]
      · refine ⟨first, ?_⟩
        rw [unfolded, EStateM.run_bind, wrote, if_neg fits, if_neg]
        intro all
        exact fits (all x List.mem_cons_self)

theorem run_write_nil (p : Access) (mem : Memory) (address : Int) :
    ((ptraceMemory p).write address []).run mem = .ok () mem := by
  have none : pyRange address address 8 = [] := by
    have units := pyRange_full address 0 8 (by decide)
    rwa [Nat.mul_zero, Int.natCast_zero, Int.add_zero] at units
  change (do
    (pyRange address (address + (0 : Int) - (0 : Int) % 8) 8).forM _
    pure () : Accessing Unit).run mem = _
  rw [Int.zero_emod, Int.add_zero, Int.sub_zero, none]
  rfl

/-- A write of which a word does not fit raises. -/
theorem run_write_overflow (p : Access) (mem : Memory) (address : Int) (data : List Byte)
    (outside : ¬ WordsFit address data.length) :
    ∃ m, ((ptraceMemory p).write address data).run mem = .error .overflowError m := by
  obtain ⟨nonempty, tooFar⟩ := not_or.mp outside
  have range : pyRange address (address + data.length - (data.length : Int) % 8)
      (ptraceMemory p).unitSize =
        (List.range (data.length / 8)).map fun (i : Nat) => address + (8 : Nat) * i := by
    have stop : address + data.length - (data.length : Int) % 8 =
        address + (8 * (data.length / 8) : Nat) := by omega
    rw [stop]
    exact pyRange_full address (data.length / 8) 8 (by decide)
  obtain ⟨m, loop⟩ := run_setUnits_fits p mem address data
    (pyRange address (address + data.length - (data.length : Int) % 8) (ptraceMemory p).unitSize)
  have unfolded : (ptraceMemory p).write address data =
      (ptraceMemory p).setUnits address data address ((data.length : Int) % 8) := rfl
  rw [unfolded, MemoryView.setUnits, EStateM.run_bind, loop]
  by_cases units : ∀ x ∈ pyRange address (address + data.length - (data.length : Int) % 8)
      (ptraceMemory p).unitSize, Fits x
  · rw [if_pos units]
    rw [range, List.forall_mem_map] at units
    have left : (data.length : Int) % 8 ≠ 0 := by
      intro full
      have first := units 0
      have last := units (data.length / 8 - 1)
      rw [List.mem_range] at first last
      have := first (by omega)
      have := last (by omega)
      unfold Fits at *
      omega
    have tail : ¬ Fits (address + data.length - (data.length : Int) % 8) := by
      have first := units 0
      rw [List.mem_range] at first
      unfold Fits at *
      omega
    have got := run_ptraceGetter_overflow p m tail
    refine ⟨m, ?_⟩
    rw [if_pos left]
    simp only [EStateM.run_bind, got]
  · exact ⟨m, by rw [if_neg units]⟩

end Libdebug.Data
