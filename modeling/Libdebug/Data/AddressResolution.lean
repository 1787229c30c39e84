import Mathlib.Algebra.Group.Int.Defs
import Mathlib.Data.List.Infix
import Libdebug.Data.WordAccess

/-!
Addresses and symbols as the user gives them, and the addresses of the process they stand for
(`resolve_address`, `resolve_symbol` and `debugging_utils.py`). What is not the address of a
map counts from the first map of the main binary.
-/

namespace Libdebug.Data

open Libdebug.Foundation

/-- A line of `/proc/pid/maps`: an address has 64 bits. -/
structure MemoryMap where
  start : Nat
  end_ : Nat
  backingFile : String
  end_le : end_ ≤ 2 ^ 64
  deriving DecidableEq

/-- What the debugger knows of the process when it resolves an address. The symbols of a file
are read from the file itself. -/
structure Process where
  maps : List MemoryMap
  /-- `_get_process_full_path` -/
  fullPath : String
  /-- `_get_process_name` -/
  name : String
  resolveSymbolInMaps : String → List MemoryMap → Except AccessError Int

/-- The maps that a backing file stands for; there is one at least. -/
abbrev FileMaps := { maps : List MemoryMap // maps ≠ [] }

/-- `maps[0]` -/
def FileMaps.first (maps : FileMaps) : MemoryMap := maps.val.head maps.property

/-! ### Texts -/

/-- `hex(value)` -/
def pyHex (value : Int) : String :=
  (if value < 0 then "-0x" else "0x") ++ String.ofList (Nat.toDigits 16 value.natAbs)

/-- `needle in text` -/
abbrev IsIn (needle text : String) : Prop := needle.toList <:+: text.toList

/-- The order of a set is not specified; here it is the one in which its elements were added. -/
def uniqueFiles (maps : List MemoryMap) : List String := (maps.map (·.backingFile)).eraseDups

def severalFiles (backingFile : String) (files : List String) : String :=
  "The substring " ++ backingFile ++ " is present in multiple, different backing files. " ++
    "The address resolution cannot be accurate. The matching backing files are: " ++
    String.intercalate ", " files ++ "."

def noFile (backingFile : String) (files : List String) : String :=
  "The specified string " ++ backingFile ++ " does not correspond to any backing file. " ++
    "The available backing files are: " ++ String.intercalate ", " files ++ "."

/-! ### Resolution -/

/-- `vmap.start <= address < vmap.end` -/
abbrev MemoryMap.Contains (vmap : MemoryMap) (address : Int) : Prop :=
  vmap.start ≤ address ∧ address < vmap.end_

def checkAbsoluteAddress (address : Int) (maps : List MemoryMap) : Bool :=
  maps.any fun vmap => vmap.Contains address

def normalizeAndValidateAddress (address : Int) (maps : FileMaps) : Except AccessError Int :=
  -- an address below the lowest map is supposed to be relative to it
  let address := if address < maps.first.start then address + maps.first.start else address
  if checkAbsoluteAddress address maps.val then
    .ok address
  else
    .error (.valueError ("Address " ++ pyHex address ++ " does not belong to any memory map."))

namespace Process

variable (process : Process)

/-- The maps in whose backing file the given name occurs. -/
def filterMaps (backingFile : String) : Except AccessError FileMaps :=
  let filteredMaps := process.maps.filter fun vmap => IsIn backingFile vmap.backingFile
  if (uniqueFiles filteredMaps).length > 1 then
    .error (.valueError (severalFiles backingFile (uniqueFiles filteredMaps)))
  else if found : filteredMaps = [] then
    .error (.valueError (noFile backingFile (uniqueFiles process.maps)))
  else
    .ok ⟨filteredMaps, found⟩

/-- The names of the main binary. -/
def fileOf (backingFile : String) : String :=
  if backingFile = process.fullPath ∨ backingFile = "binary" ∨ backingFile = process.name then
    process.fullPath
  else
    backingFile

def resolveAddress (address : Int) (backingFile : String)
    (skipAbsoluteAddressValidation : Bool) : Except AccessError Int := do
  if skipAbsoluteAddressValidation ∧ backingFile = "absolute" then
    return address
  else if backingFile = "hybrid" ∨ backingFile = "absolute" then
    if checkAbsoluteAddress address process.maps then
      return address
    else if backingFile = "absolute" then
      throw (.valueError ("The specified absolute address does not exist. " ++
        "Check the address or specify a backing file."))
    else
      -- neither is it absolute nor is a file given: it is assumed to be in the main map
      normalizeAndValidateAddress address (← process.filterMaps process.fullPath)
  else
    normalizeAndValidateAddress address (← process.filterMaps (process.fileOf backingFile))

def resolveSymbol (symbol backingFile : String) : Except AccessError Int := do
  if backingFile = "absolute" then
    throw (.valueError "Cannot use \x60absolute\x60 backing file with symbols.")
  else if backingFile = "hybrid" then
    process.resolveSymbolInMaps symbol (← process.filterMaps process.fullPath).val
  else
    process.resolveSymbolInMaps symbol (← process.filterMaps (process.fileOf backingFile)).val

end Process

variable {process : Process} {address : Int} {maps : List MemoryMap}

theorem checkAbsoluteAddress_iff :
    checkAbsoluteAddress address maps = true ↔ ∃ vmap ∈ maps, vmap.Contains address := by
  simp only [checkAbsoluteAddress, List.any_eq_true, decide_eq_true_eq]

/-- The maps of a file are maps of the process. -/
theorem Process.mem_of_filterMaps {backingFile : String} {found : FileMaps}
    (filtered : process.filterMaps backingFile = .ok found) {vmap : MemoryMap}
    (member : vmap ∈ found.val) : vmap ∈ process.maps := by
  unfold Process.filterMaps at filtered
  simp only at filtered
  split at filtered
  · cases filtered
  · split at filtered
    · cases filtered
    · cases filtered
      exact List.mem_of_mem_filter member

/-- The address is an offset into the main binary, which is one file: it lies below the first
of its maps, and in one of them when that map's start is added. -/
def Process.RelativeToBinary (process : Process) (address : Int) : Prop :=
  ∃ found, process.filterMaps process.fullPath = .ok found ∧ address < found.first.start ∧
    checkAbsoluteAddress (address + found.first.start) found.val = true

/-- In hybrid mode the address of a map stands for itself, in every mode of validation. -/
theorem Process.resolveAddress_absolute (skip : Bool)
    (absolute : checkAbsoluteAddress address process.maps = true) :
    process.resolveAddress address "hybrid" skip = .ok address := by
  unfold Process.resolveAddress
  rw [if_neg (by simp), if_pos (.inl rfl), if_pos absolute]
  rfl

/-- An address of no map is looked for in the main binary. -/
theorem Process.resolveAddress_unfold (skip : Bool)
    (absent : checkAbsoluteAddress address process.maps = false) :
    process.resolveAddress address "hybrid" skip =
      (process.filterMaps process.fullPath).bind (normalizeAndValidateAddress address) := by
  unfold Process.resolveAddress
  rw [if_neg (by simp), if_pos (.inl rfl), if_neg (by simp [absent]), if_neg (by decide)]
  rfl

/-- An address of no map is resolved in hybrid mode if and only if it is an offset into the
main binary, and then to an address above it. -/
theorem Process.resolveAddress_relative (skip : Bool)
    (absent : checkAbsoluteAddress address process.maps = false) :
    (process.RelativeToBinary address ∧ ∃ base : Nat, 0 < base ∧ address + base < 2 ^ 64 ∧
        process.resolveAddress address "hybrid" skip = .ok (address + base)) ∨
      (¬ process.RelativeToBinary address ∧
        ∃ e, process.resolveAddress address "hybrid" skip = .error e) := by
  rw [Process.resolveAddress_unfold skip absent]
  cases filtered : process.filterMaps process.fullPath with
  | error e =>
      right
      constructor
      · rintro ⟨found, ok, _⟩
        cases filtered.symm.trans ok
      · exact ⟨e, rfl⟩
  | ok found =>
      change (_ ∧ ∃ base : Nat, _ ∧ _ ∧ normalizeAndValidateAddress address found = _) ∨
        (_ ∧ ∃ e, normalizeAndValidateAddress address found = _)
      unfold normalizeAndValidateAddress
      by_cases below : address < found.first.start
      · simp only [if_pos below]
        by_cases inside : checkAbsoluteAddress (address + found.first.start) found.val = true
        · left
          obtain ⟨vmap, _, lower, upper⟩ := checkAbsoluteAddress_iff.mp inside
          have bound := vmap.end_le
          exact ⟨⟨found, filtered, below, inside⟩, found.first.start, by omega, by omega,
            if_pos inside⟩
        · right
          constructor
          · rintro ⟨other, ok, _, relative⟩
            cases filtered.symm.trans ok
            exact inside relative
          · exact ⟨_, if_neg inside⟩
      · simp only [if_neg below]
        right
        constructor
        · rintro ⟨other, ok, relative, _⟩
          cases filtered.symm.trans ok
          exact below relative
        · have outside : ¬ checkAbsoluteAddress address found.val = true := by
            intro inside
            obtain ⟨vmap, member, contains⟩ := checkAbsoluteAddress_iff.mp inside
            have present := checkAbsoluteAddress_iff.mpr
              ⟨vmap, process.mem_of_filterMaps filtered member, contains⟩
            exact Bool.false_ne_true (absent.symm.trans present)
          exact ⟨_, if_neg outside⟩

/-- The errors of a resolution are errors of the value. -/
theorem Process.filterMaps_error {backingFile : String} {e : AccessError}
    (failed : process.filterMaps backingFile = .error e) : ∃ message, e = .valueError message := by
  unfold Process.filterMaps at failed
  simp only at failed
  split at failed
  · cases failed
    exact ⟨_, rfl⟩
  · split at failed
    · cases failed
      exact ⟨_, rfl⟩
    · cases failed

theorem exists_natural_of_check (inside : checkAbsoluteAddress address maps = true) :
    ∃ place : Nat, place < 2 ^ 64 ∧ address = place := by
  obtain ⟨vmap, _, lower, upper⟩ := checkAbsoluteAddress_iff.mp inside
  have bound := vmap.end_le
  exact ⟨address.toNat, by omega, by omega⟩

/-- In hybrid mode an address is resolved to one of 64 bits, or the value is wrong. -/
theorem Process.resolveAddress_hybrid (process : Process) (address : Int) (skip : Bool) :
    (∃ place : Nat, place < 2 ^ 64 ∧
        process.resolveAddress address "hybrid" skip = .ok (place : Int)) ∨
      ∃ message, process.resolveAddress address "hybrid" skip = .error (.valueError message) := by
  cases found : checkAbsoluteAddress address process.maps with
  | true =>
      obtain ⟨place, bound, rfl⟩ := exists_natural_of_check found
      exact .inl ⟨place, bound, Process.resolveAddress_absolute skip found⟩
  | false =>
      rw [Process.resolveAddress_unfold skip found]
      cases filtered : process.filterMaps process.fullPath with
      | error e =>
          obtain ⟨message, rfl⟩ := Process.filterMaps_error filtered
          exact .inr ⟨message, rfl⟩
      | ok maps =>
          change (∃ place : Nat, _ ∧ normalizeAndValidateAddress address maps = _) ∨
            ∃ message, normalizeAndValidateAddress address maps = _
          unfold normalizeAndValidateAddress
          by_cases inside : checkAbsoluteAddress (if address < maps.first.start then
              address + maps.first.start else address) maps.val = true
          · obtain ⟨place, bound, same⟩ := exists_natural_of_check inside
            exact .inl ⟨place, bound, (if_pos inside).trans (congrArg _ same)⟩
          · exact .inr ⟨_, if_neg inside⟩

end Libdebug.Data
