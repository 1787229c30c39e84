import Libdebug.Foundation.ByteStrings
import Libdebug.Ptrace.State

/-!
`MemoryView`: byte strings of any length read and written through units of eight bytes. A
read ends with a part of a unit; a write ends with a unit of which the rest is read first
and written back.
-/

namespace Libdebug.Data

open Libdebug.Foundation Libdebug.Cffi Libdebug.Ptrace

structure MemoryView (m : Type → Type) where
  getter : Int → m (List Byte)
  setter : Int → List Byte → m Unit
  unitSize : Int := 8
  alignTo : Int := 1

namespace MemoryView

variable {m : Type → Type} [Monad m] (view : MemoryView m)

/-- The loop `data += self.getter(i)`. -/
def getUnits (addresses : List Int) (data : List Byte) : m (List Byte) :=
  addresses.foldlM (fun data i => do pure (data ++ (← view.getter i))) data

/-- `if remainder: data += self.getter(address + size - remainder)[:remainder]` -/
def getRemainder (address size remainder : Int) (data : List Byte) : m (List Byte) :=
  if remainder ≠ 0 then do
    let last ← view.getter (address + size - remainder)
    pure (data ++ sliceTo last remainder)
  else
    pure data

def read (address size : Int) : m (List Byte) :=
  if view.alignTo = 1 then do
    let remainder := size % view.unitSize
    let data ← view.getUnits (pyRange address (address + size - remainder) view.unitSize) []
    view.getRemainder address size remainder data
  else do
    let before := address % view.alignTo
    let beforeSize := view.unitSize - before
    let first ← view.getter (address - before)
    let remainder := (size - beforeSize) % view.unitSize
    let units := pyRange (address + beforeSize) (address + size - remainder) view.unitSize
    let data ← view.getUnits units (sliceFrom first before)
    view.getRemainder address size remainder data

/-- The body of the loop of `write`. -/
def setUnit (address : Int) (data : List Byte) (i : Int) : m Unit :=
  view.setter i (slice data (i - address) (i - address + view.unitSize))

/-- The units from `base` on, then the part of one that is left. -/
def setUnits (address : Int) (data : List Byte) (base remainder : Int) : m Unit := do
  let size : Int := data.length
  (pyRange base (address + size - remainder) view.unitSize).forM (view.setUnit address data)
  if remainder ≠ 0 then do
    let prevData ← view.getter (address + size - remainder)
    view.setter (address + size - remainder)
      (sliceFrom data (size - remainder) ++ sliceFrom prevData remainder)

def write (address : Int) (data : List Byte) : m Unit :=
  let size : Int := data.length
  if view.alignTo = 1 then
    view.setUnits address data address (size % view.unitSize)
  else do
    let before := address % view.alignTo
    let beforeSize := view.unitSize - before
    let prevData ← view.getter (address - before)
    view.setter (address - before) (sliceTo prevData beforeSize ++ sliceTo data before)
    view.setUnits address data (address + beforeSize) ((size - beforeSize) % view.unitSize)

end MemoryView

/-! ### Views of a memory -/

/-- The getter of a view reads the unit at an address as it is, the setter stores a unit there
and leaves the rest of the state. -/
structure Shows {ε σ : Type} (view : MemoryView (EStateM ε σ)) (unit : Nat) (mem : σ → Memory)
    (withMem : σ → Memory → σ) : Prop where
  unitSize : view.unitSize = unit
  positive : 0 < unit
  getter (s : σ) (address : Nat) :
    (view.getter address).run s = .ok (bytesAt (mem s) address unit) s
  setter (s : σ) (address : Nat) {data : List Byte} (whole : data.length = unit) :
    (view.setter address data).run s = .ok () (withMem s (store (mem s) address data))
  mem_withMem (s : σ) (m : Memory) : mem (withMem s m) = m
  withMem_withMem (s : σ) (m n : Memory) : withMem (withMem s m) n = withMem s n
  withMem_self (s : σ) : withMem s (mem s) = s

namespace Shows

variable {ε σ : Type} {view : MemoryView (EStateM ε σ)} {unit : Nat} {mem : σ → Memory}
  {withMem : σ → Memory → σ} {size : Nat} {data : List Byte}

/-! ### The loops over full units -/

/-- `i` units into a run of bytes -/
theorem range_units (shows : Shows view unit mem withMem) (address units : Nat) :
    pyRange address (address + (unit * units : Nat)) view.unitSize =
      (List.range units).map fun i => ((address + unit * i : Nat) : Int) := by
  rw [shows.unitSize]
  exact pyRange_units address units unit shows.positive

theorem run_getUnits (shows : Shows view unit mem withMem) (s : σ) (address units : Nat)
    (data : List Byte) :
    (view.getUnits (pyRange address (address + (unit * units : Nat)) view.unitSize) data).run s =
      .ok (data ++ bytesAt (mem s) address (unit * units)) s := by
  rw [shows.range_units, MemoryView.getUnits]
  induction units with
  | zero => rw [Nat.mul_zero, bytesAt_zero, List.append_nil]; rfl
  | succ units ih =>
      have got := shows.getter s (address + unit * units)
      rw [List.range_succ, List.map_append, List.foldlM_append, EStateM.run_bind, ih]
      simp only [List.map_cons, List.map_nil, List.foldlM_cons, List.foldlM_nil, bind_pure,
        EStateM.run_bind, got, EStateM.run_pure]
      rw [List.append_assoc, ← bytesAt_add, ← Nat.mul_succ]

/-- The units of a part of the data that begins some bytes after its start -/
theorem run_setUnits_loop (shows : Shows view unit mem withMem) (s : σ)
    (address skipped units : Nat) (data : List Byte)
    (full : skipped + unit * units ≤ data.length) :
    ((pyRange (address + skipped : Nat) ((address + skipped : Nat) + (unit * units : Nat))
        view.unitSize).forM (view.setUnit address data)).run s =
      .ok () (withMem s (store (mem s) (address + skipped)
        ((data.drop skipped).take (unit * units)))) := by
  rw [shows.range_units]
  induction units with
  | zero =>
      rw [Nat.mul_zero, List.take_zero, store_nil, shows.withMem_self]
      rfl
  | succ units ih =>
      rw [Nat.mul_succ] at full
      have index : ((address + skipped + unit * units : Nat) : Int) - address =
          (skipped + unit * units : Nat) := by omega
      have next : slice data (skipped + unit * units : Nat)
          ((skipped + unit * units : Nat) + view.unitSize) =
            ((data.drop skipped).drop (unit * units)).take unit := by
        rw [shows.unitSize, List.drop_drop]
        exact slice_natCast data (skipped + unit * units) unit
      have whole : (((data.drop skipped).drop (unit * units)).take unit).length = unit := by
        rw [List.length_take, List.length_drop, List.length_drop]
        omega
      have before : ((data.drop skipped).take (unit * units)).length = unit * units := by
        rw [List.length_take, List.length_drop]
        omega
      have last : (view.setUnit address data (address + skipped + unit * units : Nat)).run
          (withMem s (store (mem s) (address + skipped)
            ((data.drop skipped).take (unit * units)))) =
              .ok () (withMem s (store (mem s) (address + skipped)
                ((data.drop skipped).take (unit * (units + 1))))) := by
        rw [MemoryView.setUnit, index, next, shows.setter _ _ whole, shows.mem_withMem,
          shows.withMem_withMem, Nat.mul_succ, List.take_add, store_append, before]
      rw [List.forM_eq_forM] at ih ⊢
      rw [List.range_succ, List.map_append, List.forM_append, EStateM.run_bind, ih (by omega)]
      simp only [List.map_cons, List.map_nil, List.forM_cons, List.forM_nil, bind_pure_unit, last]

/-! ### What follows the bytes that are done -/

theorem rest_mod (shows : Shows view unit mem withMem) {skipped : Nat} (inside : skipped ≤ size) :
    ((size : Int) - skipped) % view.unitSize = ((size - skipped) % unit : Nat) := by
  rw [shows.unitSize, ← Int.ofNat_sub inside, Int.natCast_emod]

/-- The full units of a run of bytes end where the part that is left begins. -/
theorem end_of_units {skipped : Nat} (inside : skipped ≤ size) (address unit : Nat) :
    (address : Int) + size - ((size - skipped) % unit : Nat) =
      (address + skipped : Nat) + (unit * ((size - skipped) / unit) : Nat) := by
  have whole := Nat.div_add_mod (size - skipped) unit
  omega

theorem run_getRemainder (shows : Shows view unit mem withMem) (s : σ) {address last left : Nat}
    (place : (address : Int) + size - left = last) (short : left ≤ unit) (data : List Byte) :
    (view.getRemainder address size left data).run s =
      .ok (data ++ bytesAt (mem s) last left) s := by
  unfold MemoryView.getRemainder
  by_cases none : left = 0
  · rw [if_neg (by omega), none, bytesAt_zero, List.append_nil]
    rfl
  · rw [if_pos (by omega), place, EStateM.run_bind, shows.getter s last]
    simp only [sliceTo_natCast, take_bytesAt _ _ short, EStateM.run_pure]

/-- **The rest of a read**: the bytes that follow those that are there already -/
theorem run_readRest (shows : Shows view unit mem withMem) (s : σ) (address : Nat)
    {skipped : Nat} (inside : skipped ≤ size) (data : List Byte) :
    (do let data ← view.getUnits (pyRange (address + skipped : Nat)
          (address + size - ((size : Int) - skipped) % view.unitSize) view.unitSize) data
        view.getRemainder address size (((size : Int) - skipped) % view.unitSize) data).run s =
      .ok (data ++ bytesAt (mem s) (address + skipped) (size - skipped)) s := by
  have place := end_of_units inside address unit
  have units := shows.run_getUnits s (address + skipped) ((size - skipped) / unit) data
  have short : (size - skipped) % unit ≤ unit := Nat.le_of_lt (Nat.mod_lt _ shows.positive)
  have rest := shows.run_getRemainder s (place.trans (Int.natCast_add _ _).symm) short
    (data ++ bytesAt (mem s) (address + skipped) (unit * ((size - skipped) / unit)))
  rw [List.append_assoc, ← bytesAt_add, Nat.div_add_mod] at rest
  rw [shows.rest_mod inside, EStateM.run_bind, place, units]
  exact rest

/-- The part of a unit that is left of a write is written with the bytes that follow it. -/
theorem run_setRemainder (shows : Shows view unit mem withMem) (s : σ) {left : Nat}
    (last : Nat) (short : left ≤ unit) (part : left ≤ data.length) :
    (do let prevData ← view.getter (last : Int)
        view.setter (last : Int)
          (sliceFrom data (data.length - (left : Int)) ++ sliceFrom prevData left) :
            EStateM ε σ Unit).run s =
      .ok () (withMem s (store (mem s) last (data.drop (data.length - left)))) := by
  have start : (data.length : Int) - left = (data.length - left : Nat) := by omega
  have tail : (data.drop (data.length - left)).length = left := by
    rw [List.length_drop]
    omega
  have kept : (bytesAt (mem s) last unit).drop left =
      bytesAt (mem s) (last + left) (unit - left) := by
    rw [← drop_bytesAt, Nat.add_sub_cancel' short]
  have whole : (data.drop (data.length - left) ++
      bytesAt (mem s) (last + left) (unit - left)).length = unit := by
    rw [List.length_append, tail, length_bytesAt, Nat.add_sub_cancel' short]
  have same := store_append_kept (mem s) last (data.drop (data.length - left)) (unit - left)
  rw [tail] at same
  rw [EStateM.run_bind, shows.getter s last, start]
  simp only [sliceFrom_natCast, kept]
  rw [shows.setter _ _ whole, same]

/-- **The rest of a write**: the bytes that follow those that are there already -/
theorem run_setUnits (shows : Shows view unit mem withMem) (s : σ) (address : Nat)
    {skipped : Nat} (inside : skipped ≤ data.length) :
    (view.setUnits address data (address + skipped : Nat)
        (((data.length : Int) - skipped) % view.unitSize)).run s =
      .ok () (withMem s (store (mem s) (address + skipped) (data.drop skipped))) := by
  have whole := Nat.div_add_mod (data.length - skipped) unit
  have place := end_of_units inside address unit
  have loop := shows.run_setUnits_loop s address skipped ((data.length - skipped) / unit) data
    (by omega)
  have short : (data.length - skipped) % unit ≤ unit := Nat.le_of_lt (Nat.mod_lt _ shows.positive)
  have part : (data.length - skipped) % unit ≤ data.length := by omega
  rw [MemoryView.setUnits, shows.rest_mod inside, EStateM.run_bind, place, loop]
  by_cases left : (data.length - skipped) % unit = 0
  · have all : (data.drop skipped).take (unit * ((data.length - skipped) / unit)) =
        data.drop skipped := by
      apply List.take_of_length_le
      rw [List.length_drop]
      omega
    rw [if_neg (by omega), all]
    rfl
  · have rest := shows.run_setRemainder (withMem s (store (mem s) (address + skipped)
      ((data.drop skipped).take (unit * ((data.length - skipped) / unit)))))
      (address + skipped + unit * ((data.length - skipped) / unit)) short part
    have tail : data.length - (data.length - skipped) % unit =
        skipped + unit * ((data.length - skipped) / unit) := by omega
    have head : ((data.drop skipped).take (unit * ((data.length - skipped) / unit))).length =
        unit * ((data.length - skipped) / unit) := by
      rw [List.length_take, List.length_drop]
      omega
    have both := store_append (mem s) (address + skipped)
      ((data.drop skipped).take (unit * ((data.length - skipped) / unit)))
      ((data.drop skipped).drop (unit * ((data.length - skipped) / unit)))
    rw [List.take_append_drop, head] at both
    rw [shows.mem_withMem, shows.withMem_withMem, tail, ← List.drop_drop, ← both,
      Int.natCast_add] at rest
    rw [if_pos (by omega)]
    exact rest

end Shows

/-! ### The memory of the process -/

variable {K : Type}

/-- `__threaded_peek_memory`; an address is not negative. -/
def threadedPeekMemory (address : Int) : Py K (List Byte) := do
  let s ← get
  pure (toBytes (s.world.peekdata address.toNat))

/-- `__threaded_poke_memory` -/
def threadedPokeMemory (address : Int) (data : List Byte) : Py K Unit :=
  modify fun s => { s with world := s.world.pokedata address.toNat (fromBytes data) }

/-- The `memory` of `InternalDebugger`. -/
def memory : MemoryView (Py K) where
  getter := threadedPeekMemory
  setter := threadedPokeMemory

/-- The memory of the process, and nothing else, is another. -/
def withMemory (s : Debugger K) (mem : Memory) : Debugger K :=
  { s with world := { s.world with mem } }

variable {s : Debugger K} {address : Nat} {data : List Byte}

theorem run_getter (s : Debugger K) (address : Nat) :
    (memory.getter (address : Int)).run s = .ok (bytesAt s.world.mem address 8) s := by
  have bytes := toBytes_peekWord s.world.mem address
  exact congrArg (EStateM.Result.ok · s) bytes

theorem run_setter (s : Debugger K) (address : Nat) (eight : data.length = 8) :
    (memory.setter (address : Int) data).run s =
      .ok () (withMemory s (store s.world.mem address data)) := by
  have stored := pokeWord_fromBytes s.world.mem address eight
  exact congrArg (fun mem => EStateM.Result.ok () (withMemory s mem)) stored

theorem memory_shows :
    Shows (memory (K := K)) 8 (fun s => s.world.mem) withMemory where
  unitSize := rfl
  positive := by decide
  getter := run_getter
  setter s address _ whole := run_setter s address whole
  mem_withMem _ _ := rfl
  withMem_withMem _ _ _ := rfl
  withMem_self _ := rfl

/-! ### Whole reads and writes -/

/-- A read returns the bytes that are there, and changes nothing. -/
theorem run_read (s : Debugger K) (address size : Nat) :
    (memory.read address size).run s = .ok (bytesAt s.world.mem address size) s := by
  have rest := memory_shows.run_readRest s address (Nat.zero_le size) []
  exact rest

/-- A write replaces the bytes of its range, and changes nothing else. -/
theorem run_write (s : Debugger K) (address : Nat) (data : List Byte) :
    (memory.write address data).run s =
      .ok () (withMemory s (store s.world.mem address data)) := by
  have rest := memory_shows.run_setUnits s address (Nat.zero_le data.length)
  exact rest

/-- Memory is written and read exactly: a write replaces the bytes of its range by the data
and no others, a read returns the bytes of its range, so that what was written is read
back. -/
theorem memory_view_exact (s : Debugger K) (address : Nat) (data : List Byte) :
    ∃ t, (memory.write address data).run s = .ok () t ∧
      t = withMemory s t.world.mem ∧
      (∀ i, (inside : i < data.length) → t.world.mem (address + i) = data[i]) ∧
      (∀ x, x < address ∨ address + data.length ≤ x → t.world.mem x = s.world.mem x) ∧
      (∀ b n : Nat, (memory.read b n).run t = .ok (bytesAt t.world.mem b n) t) ∧
      (memory.read address data.length).run t = .ok data t := by
  refine ⟨_, run_write s address data, rfl, ?_, ?_, ?_, ?_⟩
  · intro i inside
    exact store_inside inside
  · intro x outside
    exact store_outside outside
  · intro b n
    exact run_read _ b n
  · have back := bytesAt_store s.world.mem address data
    exact (run_read _ address data.length).trans (congrArg (EStateM.Result.ok · _) back)

end Libdebug.Data
