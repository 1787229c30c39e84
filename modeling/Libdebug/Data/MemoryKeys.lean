import Libdebug.Data.AddressResolution

/-!
`d.memory[key]` and `d.memory[key] = value`: the forms of a key and what each reads and writes.
A tuple resolves its address and counts bytes from there; a slice resolves both of its bounds,
each on its own. The warnings of widths that do not match are left out.
-/

namespace Libdebug.Data

open Libdebug.Foundation

/-- An address, or the name of a symbol -/
inductive Position where
  | int (address : Int)
  | str (symbol : String)
  deriving DecidableEq

inductive Key where
  | int (address : Int)
  | slice (start : Position) (stop : Option Position)
  | str (symbol : String)
  /-- `(address, size, file)` -/
  | sized (address : Position) (size : Int) (file : String)
  /-- `(key, file)` -/
  | inFile (key : Key) (file : String)
  /-- `(address, size)` -/
  | range (address : Position) (size : Int)

/-- `except OSError as e: raise ValueError("Invalid address.") from e` -/
def invalidAddress {α : Type} (access : Accessing α) : Accessing α :=
  tryCatch access fun
    | .osError _ => throw (.valueError "Invalid address.")
    | e => throw e

variable (process : Process) (p : Access)

namespace Process

def resolvePosition (file : String) : Position → Except AccessError Int
  | .int address => process.resolveAddress address file true
  | .str symbol => process.resolveSymbol symbol file

/-- `resolve_address(None, file)`: the comparison with the first address fails, unless no map
is left to compare with. -/
def resolveNone (file : String) : Except AccessError Int :=
  if file = "hybrid" ∨ file = "absolute" then .error .typeError
  else (process.filterMaps (process.fileOf file)).bind fun _ => .error .typeError

/-- The second bound of a slice -/
def resolveStop (file : String) : Option Position → Except AccessError Int
  | some stop => process.resolvePosition file stop
  | none => process.resolveNone file

end Process

def manageMemoryReadTuple (address : Position) (size : Int) (file : String) :
    Accessing (List Byte) := do
  let address ← ofExcept (process.resolvePosition file address)
  invalidAddress ((ptraceMemory p).read address size)

def manageMemoryReadType : Key → String → Accessing (List Byte)
  | .int key, file => do
      let address ← ofExcept (process.resolveAddress key file true)
      invalidAddress ((ptraceMemory p).read address 1)
  | .slice start stop, file => do
      let start ← ofExcept (process.resolvePosition file start)
      let stop ← ofExcept (process.resolveStop file stop)
      if stop < start then
        throw (.valueError "Invalid slice range.")
      else
        invalidAddress ((ptraceMemory p).read start (stop - start))
  | .str key, file => do
      let address ← ofExcept (process.resolveSymbol key file)
      (ptraceMemory p).read address 1
  | .sized address size file, _ => manageMemoryReadTuple process p address size file
  | .inFile left right, _ => manageMemoryReadType left right
  | .range left right, _ => manageMemoryReadTuple process p left right "hybrid"

def manageMemoryWriteTuple (address : Position) (value : List Byte) (file : String) :
    Accessing Unit := do
  let address ← ofExcept (process.resolvePosition file address)
  invalidAddress ((ptraceMemory p).write address value)

def manageMemoryWriteType : Key → List Byte → String → Accessing Unit
  | .int key, value, file => do
      let address ← ofExcept (process.resolveAddress key file true)
      invalidAddress ((ptraceMemory p).write address value)
  | .slice start stop, value, file => do
      let start ← ofExcept (process.resolvePosition file start)
      if let some stop := stop then
        let stop ← ofExcept (process.resolvePosition file stop)
        if stop < start then throw (.valueError "Invalid slice range")
      invalidAddress ((ptraceMemory p).write start value)
  | .str key, value, file => do
      let address ← ofExcept (process.resolveSymbol key file)
      (ptraceMemory p).write address value
  | .sized address _ file, value, _ => manageMemoryWriteTuple process p address value file
  | .inFile left right, value, _ => manageMemoryWriteType left value right
  | .range left _, value, _ => manageMemoryWriteTuple process p left value "hybrid"

/-- `d.memory[key]` -/
def getitem (key : Key) : Accessing (List Byte) := manageMemoryReadType process p key "hybrid"

/-- `d.memory[key] = value` -/
def setitem (key : Key) (value : List Byte) : Accessing Unit :=
  manageMemoryWriteType process p key value "hybrid"

variable {process : Process} {p : Access} {mem : Memory} {a n : Nat} {value : List Byte}

section Errors

variable {α : Type} {access : Accessing α} {m : Memory}

theorem invalidAddress_ok {v : α} (returned : access.run mem = .ok v m) :
    (invalidAddress access).run mem = .ok v m := by
  change EStateM.tryCatch access _ mem = _
  rw [EStateM.tryCatch]
  change access mem = _ at returned
  rw [returned]

theorem invalidAddress_osError {errno : Nat}
    (raised : access.run mem = .error (.osError errno) m) :
    (invalidAddress access).run mem = .error (.valueError "Invalid address.") m := by
  change EStateM.tryCatch access _ mem = _
  rw [EStateM.tryCatch]
  change access mem = _ at raised
  rw [raised]
  rfl

theorem invalidAddress_overflow (raised : access.run mem = .error .overflowError m) :
    (invalidAddress access).run mem = .error .overflowError m := by
  change EStateM.tryCatch access _ mem = _
  rw [EStateM.tryCatch]
  change access mem = _ at raised
  rw [raised]
  rfl

end Errors

/-! ### Base and length -/

theorem getitem_absolute (size : Nat) :
    getitem process p (.sized (.int a) size "absolute") =
      invalidAddress ((ptraceMemory p).read a size) := rfl

theorem setitem_absolute (size : Nat) :
    setitem process p (.sized (.int a) size "absolute") value =
      invalidAddress ((ptraceMemory p).write a value) := rfl

/-- The addresses at which the process has memory -/
structure Layout where
  mapped : Nat → Bool
  lt_of_mapped : ∀ x, mapped x = true → x < 2 ^ 64

namespace Layout

/-- All eight bytes of a word are mapped. -/
abbrev WordMapped (l : Layout) (x : Nat) : Prop := ∀ i < 8, l.mapped (x + i) = true

/-- `EIO` -/
abbrev eio : Nat := 5

theorem eio_ne_zero : eio ≠ 0 := Nat.succ_ne_zero 4

/-- `PTRACE_PEEKDATA` and `PTRACE_POKEDATA` succeed on mapped words, and fail with `EIO`
elsewhere. -/
def access (l : Layout) : Access where
  readable x := decide (l.WordMapped x)
  writable x := decide (l.WordMapped x)
  errno := eio
  errno_ne_zero := eio_ne_zero

end Layout

/-- The one map of a small binary -/
def binTrueMap : MemoryMap where
  start := 0x1000
  end_ := 0x2000
  backingFile := "/bin/true"
  end_le := by decide

def binTrue : Process where
  maps := [binTrueMap]
  fullPath := "/bin/true"
  name := "true"
  resolveSymbolInMaps _ _ := .error (.valueError "")

/-- The page of that map -/
def page : Layout where
  mapped x := decide (0x1000 ≤ x ∧ x < 0x2000)
  lt_of_mapped x inside := by
    have := of_decide_eq_true inside
    omega

def blank : Memory := fun _ => 0

variable {l : Layout}

/-- All words of a mapped range are mapped, with the exception of the one at its end, of which
only a part belongs to the range. -/
theorem allReadable_layout (whole : ∀ i < n, l.mapped (a + i) = true) :
    AllReadable l.access a n ↔ n % 8 = 0 ∨ l.WordMapped (a + 8 * (n / 8)) := by
  have units : ∀ i < n / 8, l.access.readable (a + 8 * i) = true := by
    intro i inside
    apply decide_eq_true
    intro j bound
    rw [Nat.add_assoc]
    exact whole (8 * i + j) (by omega)
  rw [allReadable_iff, and_iff_right units]
  exact or_congr_right (decide_eq_true_iff)

/-- A range all of whose bytes are mapped can be read and written if and only if it consists
of whole words, or the word that its last bytes begin is mapped to its end. -/
theorem sized_access_iff (process : Process) (l : Layout) (mem : Memory) {a n : Nat}
    (nonempty : 0 < n) (whole : ∀ i < n, l.mapped (a + i) = true) :
    ((getitem process l.access (.sized (.int a) n "absolute")).run mem =
          .ok (bytesAt mem a n) mem ∧
        ∀ value, value.length = n →
          (setitem process l.access (.sized (.int a) n "absolute") value).run mem =
            .ok () (store mem a value)) ↔
      n % 8 = 0 ∨ l.WordMapped (a + 8 * (n / 8)) := by
  have bound : a + (n - 1) < 2 ^ 64 := l.lt_of_mapped _ (whole (n - 1) (by omega))
  have inside : a + 8 * ((n + 7) / 8) < 2 ^ 64 + 8 := by omega
  have read := run_read_ptrace l.access mem a n inside
  constructor
  · rintro ⟨returned, _⟩
    by_contra cut
    have unreadable : ¬ AllReadable l.access a n := mt (allReadable_layout whole).mp cut
    have raised := invalidAddress_osError (read.trans (if_neg unreadable))
    rw [getitem_absolute] at returned
    cases raised.symm.trans returned
  · intro ends
    have readable := (allReadable_layout whole).mpr ends
    constructor
    · rw [getitem_absolute]
      exact invalidAddress_ok (read.trans (if_pos readable))
    · rintro value rfl
      have write := run_write_ptrace l.access mem a value inside
      have tail := (allReadable_iff.mp readable).2
      rw [if_pos tail, written_eq_store readable] at write
      rw [setitem_absolute]
      exact invalidAddress_ok write

theorem sized_access_in_page :
    (getitem binTrue page.access (.sized (.int 0x1ff8) 4 "absolute")).run blank =
      .ok (bytesAt blank 0x1ff8 4) blank :=
  ((sized_access_iff binTrue page blank (a := 0x1ff8) (n := 4) (by decide)
    (by decide)).mpr (.inr (by decide))).1

/-- The last byte of a page is mapped, and cannot be read. -/
theorem last_byte_unreadable :
    page.mapped 0x1fff = true ∧
      (getitem binTrue page.access (.sized (.int 0x1fff) 1 "absolute")).run blank =
        .error (.valueError "Invalid address.") blank := by
  constructor
  · decide
  · rfl

/-! ### Slices -/

/-- The first access returns what the second returns, and raises only if the second does. -/
def Agrees {α : Type} (first second : EStateM.Result AccessError Memory α) : Prop :=
  match first with
  | .ok value m => second = .ok value m
  | .error _ _ => ∃ e m, second = .error e m

section Slices

variable {stop : Int} (inside : checkAbsoluteAddress a process.maps = true)
include inside

theorem getitem_range :
    getitem process p (.range (.int a) n) = invalidAddress ((ptraceMemory p).read a n) := by
  change (ofExcept (process.resolveAddress a "hybrid" true) >>= _ : Accessing _) = _
  rw [Process.resolveAddress_absolute true inside]
  rfl

theorem setitem_range :
    setitem process p (.range (.int a) n) value =
      invalidAddress ((ptraceMemory p).write a value) := by
  change (ofExcept (process.resolveAddress a "hybrid" true) >>= _ : Accessing _) = _
  rw [Process.resolveAddress_absolute true inside]
  rfl

/-- A slice fails where its second bound is not resolved. -/
theorem slice_error (p : Access) (mem : Memory) (value : List Byte) {e : AccessError}
    (unresolved : process.resolveAddress stop "hybrid" true = .error e) :
    (getitem process p (.slice (.int a) (some (.int stop)))).run mem = .error e mem ∧
      (setitem process p (.slice (.int a) (some (.int stop))) value).run mem = .error e mem := by
  constructor
  · change (ofExcept (process.resolveAddress a "hybrid" true) >>= fun _ =>
      ofExcept (process.resolveAddress stop "hybrid" true) >>= _ : Accessing _).run mem = _
    rw [Process.resolveAddress_absolute true inside, unresolved]
    rfl
  · change (ofExcept (process.resolveAddress a "hybrid" true) >>= fun _ =>
      ofExcept (process.resolveAddress stop "hybrid" true) >>= _ : Accessing _).run mem = _
    rw [Process.resolveAddress_absolute true inside, unresolved]
    rfl

/-- A slice whose second bound is resolved reads up to there, and writes the whole value. -/
theorem slice_ok (p : Access) (value : List Byte) (last : Nat)
    (resolved : process.resolveAddress stop "hybrid" true = .ok last)
    (order : a ≤ last) :
    getitem process p (.slice (.int a) (some (.int stop))) =
        invalidAddress ((ptraceMemory p).read a (last - a : Nat)) ∧
      setitem process p (.slice (.int a) (some (.int stop))) value =
        invalidAddress ((ptraceMemory p).write a value) := by
  have size : (last : Int) - a = (last - a : Nat) := by omega
  have noThrow : ¬ (last : Int) < a := by omega
  constructor
  · change (ofExcept (process.resolveAddress a "hybrid" true) >>= fun start =>
      ofExcept (process.resolveAddress stop "hybrid" true) >>= fun stop =>
        if stop < start then throw (.valueError "Invalid slice range.")
        else invalidAddress ((ptraceMemory p).read start (stop - start)) : Accessing _) = _
    rw [Process.resolveAddress_absolute true inside, resolved, ← size]
    exact if_neg noThrow
  · change (ofExcept (process.resolveAddress a "hybrid" true) >>= fun start =>
      ofExcept (process.resolveAddress stop "hybrid" true) >>= fun stop => do
        if stop < start then throw (.valueError "Invalid slice range")
        invalidAddress ((ptraceMemory p).write start value) : Accessing _) = _
    rw [Process.resolveAddress_absolute true inside, resolved]
    change (do
      if (last : Int) < a then throw (.valueError "Invalid slice range")
      invalidAddress ((ptraceMemory p).write a value) : Accessing _) = _
    rw [if_neg noThrow]

end Slices

theorem run_invalidRead (p : Access) (mem : Memory) (a n : Nat)
    (inside : a + 8 * ((n + 7) / 8) < 2 ^ 64 + 8) :
    (invalidAddress ((ptraceMemory p).read a n)).run mem =
      if AllReadable p a n then .ok (bytesAt mem a n) mem
      else .error (.valueError "Invalid address.") mem := by
  have read := run_read_ptrace p mem a n inside
  by_cases readable : AllReadable p a n
  · rw [if_pos readable] at read ⊢
    exact invalidAddress_ok read
  · rw [if_neg readable] at read ⊢
    exact invalidAddress_osError read

/-- A read of one word at most, in hybrid mode, returns bytes or finds the value wrong. It leaves
the memory as it is. -/
theorem getitem_range_outcome (process : Process) (p : Access) (mem : Memory) (x : Int) {n : Nat}
    (short : n ≤ 8) :
    (∃ data, (getitem process p (.range (.int x) n)).run mem = .ok data mem) ∨
      ∃ message, (getitem process p (.range (.int x) n)).run mem =
        .error (.valueError message) mem := by
  have unfolded : getitem process p (.range (.int x) n) =
      ofExcept (process.resolveAddress x "hybrid" true) >>= fun address =>
        invalidAddress ((ptraceMemory p).read address n) := rfl
  rcases process.resolveAddress_hybrid x true with ⟨place, bound, resolved⟩ | ⟨message, failed⟩
  · have read := run_invalidRead p mem place n (by omega)
    rw [unfolded, resolved]
    change (∃ data, (invalidAddress ((ptraceMemory p).read place n)).run mem = _) ∨
      ∃ message, (invalidAddress ((ptraceMemory p).read place n)).run mem = _
    rw [read]
    split
    · exact .inl ⟨_, rfl⟩
    · exact .inr ⟨_, rfl⟩
  · rw [unfolded, failed]
    exact .inr ⟨message, rfl⟩

/-- What makes a write raise: a word that does not fit, or the word at its end, of which a part
is written, cannot be read. -/
abbrev WriteRaises (p : Access) (address size : Nat) : Prop :=
  ¬ WordsFit address size ∨
    (size % 8 ≠ 0 ∧ p.readable (address + 8 * (size / 8)) = false)

theorem write_raises_iff (p : Access) (mem : Memory) (a : Nat) (value : List Byte) :
    (∃ e m, (invalidAddress ((ptraceMemory p).write a value)).run mem = .error e m) ↔
      WriteRaises p a value.length := by
  by_cases empty : value = []
  · subst empty
    have returned := invalidAddress_ok (run_write_nil p mem a)
    constructor
    · rintro ⟨e, m, raised⟩
      cases returned.symm.trans raised
    · rintro (outside | ⟨cut, _⟩)
      · exact absurd (.inl rfl) outside
      · exact absurd rfl cut
  by_cases fits : WordsFit a value.length
  · have inside : a + 8 * ((value.length + 7) / 8) < 2 ^ 64 + 8 :=
      (fits.resolve_left (mt List.eq_nil_of_length_eq_zero empty)).2
    have write := run_write_ptrace p mem a value inside
    by_cases ends : value.length % 8 = 0 ∨ p.readable (a + 8 * (value.length / 8)) = true
    · rw [if_pos ends] at write
      have returned := invalidAddress_ok write
      constructor
      · rintro ⟨e, m, raised⟩
        cases returned.symm.trans raised
      · rintro (outside | ⟨cut, unreadable⟩)
        · exact absurd fits outside
        · rcases ends with full | readable
          · exact absurd full cut
          · exact absurd (unreadable.symm.trans readable) Bool.false_ne_true
    · rw [if_neg ends] at write
      obtain ⟨cut, unreadable⟩ := not_or.mp ends
      constructor
      · intro _
        exact .inr ⟨cut, Bool.eq_false_of_not_eq_true unreadable⟩
      · intro _
        exact ⟨_, _, invalidAddress_osError write⟩
  · obtain ⟨m, write⟩ := run_write_overflow p mem a value fits
    constructor
    · intro _
      exact .inl fits
    · intro _
      exact ⟨_, _, invalidAddress_overflow write⟩

theorem Agrees.refl {α : Type} (access : EStateM.Result AccessError Memory α) :
    Agrees access access := by
  cases access with
  | ok value m => rfl
  | error e m => exact ⟨e, m, rfl⟩

/-- A read of more bytes never returns what a read of fewer returns, and raises where it
does. -/
theorem longer_read_agrees {more : Nat} (longer : 0 < more)
    (bound : a + (n + more) ≤ 2 ^ 64) :
    Agrees ((invalidAddress ((ptraceMemory p).read a (n + more : Nat))).run mem)
        ((invalidAddress ((ptraceMemory p).read a n)).run mem) ↔ ¬ AllReadable p a n := by
  rw [run_invalidRead p mem a (n + more) (by omega), run_invalidRead p mem a n (by omega)]
  by_cases all : AllReadable p a (n + more)
  · have some : AllReadable p a n := fun i inside => all i (by omega)
    rw [if_pos all, if_pos some]
    constructor
    · intro agrees
      have same := congrArg List.length (EStateM.Result.ok.inj agrees).1
      rw [length_bytesAt, length_bytesAt] at same
      omega
    · intro unreadable
      exact absurd some unreadable
  · rw [if_neg all]
    constructor
    · rintro ⟨e, m, raised⟩ readable
      rw [if_pos readable] at raised
      cases raised
    · intro unreadable
      rw [if_neg unreadable]
      exact ⟨_, _, rfl⟩

/-- For a range inside a map, the slice that names it does what base and length do if and only
if the end of the range is again the address of a map, or base and length raise. A write is
not misled by an end that is an offset into the main binary, as it takes the size of the value
instead. -/
theorem slice_agrees_iff (process : Process) (p : Access) (mem : Memory) {vmap : MemoryMap}
    (member : vmap ∈ process.maps) {a n : Nat} (nonempty : 0 < n) (lower : vmap.start ≤ a)
    (upper : a + n ≤ vmap.end_) :
    (Agrees ((getitem process p (.slice (.int a) (some (.int (a + n))))).run mem)
          ((getitem process p (.range (.int a) n)).run mem) ↔
        checkAbsoluteAddress (a + n) process.maps = true ∨ ¬ AllReadable p a n) ∧
      ∀ value,
        Agrees ((setitem process p (.slice (.int a) (some (.int (a + n)))) value).run mem)
            ((setitem process p (.range (.int a) n) value).run mem) ↔
          checkAbsoluteAddress (a + n) process.maps = true ∨
            process.RelativeToBinary (a + n) ∨ WriteRaises p a value.length := by
  have inside : checkAbsoluteAddress a process.maps = true :=
    checkAbsoluteAddress_iff.mpr ⟨vmap, member, by unfold MemoryMap.Contains; omega⟩
  have bound := vmap.end_le
  rw [getitem_range inside]
  simp only [setitem_range inside]
  cases found : checkAbsoluteAddress (a + n) process.maps with
  | true =>
      have resolved := process.resolveAddress_absolute true found
      have slice := fun value => slice_ok inside p value (a + n) resolved
        (Nat.le_add_right a n)
      rw [(slice []).1, Nat.add_sub_cancel_left]
      simp only [(slice _).2, true_or, iff_true]
      exact ⟨Agrees.refl _, fun value => Agrees.refl _⟩
  | false =>
      rcases process.resolveAddress_relative true found with
        ⟨relative, base, positive, fits, resolved⟩ | ⟨absent, e, unresolved⟩
      · have slice := fun value => slice_ok inside p value (a + n + base) resolved
          (by omega)
        have size : a + n + base - a = n + base := by omega
        rw [(slice []).1, size, longer_read_agrees positive (by omega)]
        simp only [(slice _).2, relative, Bool.false_eq_true, false_or, true_or, iff_true, true_and]
        exact fun value => Agrees.refl _
      · have read := run_invalidRead p mem a n (by omega)
        have slice := fun value => slice_error inside p mem value unresolved
        rw [(slice []).1, read]
        simp only [(slice _).2, absent, Bool.false_eq_true, false_or]
        constructor
        · by_cases readable : AllReadable p a n
          · rw [if_pos readable]
            constructor
            · rintro ⟨e, m, raised⟩
              cases raised
            · intro unreadable
              exact absurd readable unreadable
          · rw [if_neg readable]
            constructor
            · intro _
              exact readable
            · intro _
              exact ⟨_, _, rfl⟩
        · intro value
          exact write_raises_iff p mem a value

theorem slice_agrees_before_end :
    Agrees ((getitem binTrue page.access (.slice (.int 0x1ff0) (some (.int 0x1ff8)))).run blank)
      ((getitem binTrue page.access (.range (.int 0x1ff0) 8)).run blank) :=
  (slice_agrees_iff binTrue page.access blank (a := 0x1ff0) (n := 8)
    (List.mem_cons_self : binTrueMap ∈ binTrue.maps) (by decide) (by decide)
    (by decide)).1.mpr (.inl (by decide))

/-- The last word of the only map: its end is no address of a map. -/
theorem slice_to_end_raises :
    (getitem binTrue page.access (.slice (.int 0x1ff8) (some (.int 0x2000)))).run blank =
        .error (.valueError "Address 0x2000 does not belong to any memory map.") blank ∧
      (getitem binTrue page.access (.range (.int 0x1ff8) 8)).run blank =
        .ok [0, 0, 0, 0, 0, 0, 0, 0] blank := by
  constructor
  · rfl
  · rfl

end Libdebug.Data
