import Libdebug.Foundation.Attempts
import Libdebug.Utils.ElfUtils

/-!
Symbols and addresses of the memory maps (`resolve_symbol_in_maps` and `resolve_address_in_maps`
of `debugging_utils.py`), and when a symbol that an address is resolved to is resolved to that
address again.
-/

namespace Libdebug.Utils

open Libdebug.Foundation Libdebug.Data

/-! ### Mapped files -/

/-- The map is of a file, and is not a special one such as `[stack]`. -/
def ofFile (vmap : MemoryMap) : Bool :=
  match vmap.backingFile.toList with
  | [] => false
  | first :: _ => first ≠ '['

def addMappedFile (mappedFiles : Dict String Nat) (vmap : MemoryMap) : Dict String Nat :=
  if ofFile vmap ∧ mappedFiles.get? vmap.backingFile = none then
    mappedFiles.set vmap.backingFile vmap.start
  else
    mappedFiles

/-- Each file with the start of its first map -/
def mappedFiles (maps : List MemoryMap) : Dict String Nat := maps.foldl addMappedFile .empty

def addMappedRange (mappedFiles : Dict String (Nat × Nat)) (vmap : MemoryMap) :
    Dict String (Nat × Nat) :=
  if ofFile vmap then
    match mappedFiles.get? vmap.backingFile with
    | none => mappedFiles.set vmap.backingFile (vmap.start, vmap.end_)
    | some range => mappedFiles.set vmap.backingFile (range.1, vmap.end_)
  else
    mappedFiles

/-- Each file with the start of its first map and the end of its last -/
def mappedRanges (maps : List MemoryMap) : Dict String (Nat × Nat) :=
  maps.foldl addMappedRange .empty

/-- The two agree on where each file starts. -/
def SameStarts (mappedFiles : Dict String Nat) (ranges : Dict String (Nat × Nat)) : Prop :=
  mappedFiles.entries = ranges.entries.map fun file => (file.1, file.2.1)

theorem SameStarts.get? {mappedFiles : Dict String Nat} {ranges : Dict String (Nat × Nat)}
    (same : SameStarts mappedFiles ranges) (file : String) :
    mappedFiles.get? file = (ranges.get? file).map Prod.fst := by
  unfold Dict.get?
  rw [same, List.find?_map]
  simp only [Option.map_map]
  rfl

theorem SameStarts.add {mappedFiles : Dict String Nat} {ranges : Dict String (Nat × Nat)}
    (same : SameStarts mappedFiles ranges) (vmap : MemoryMap) :
    SameStarts (addMappedFile mappedFiles vmap) (addMappedRange ranges vmap) := by
  have found := same.get? vmap.backingFile
  unfold addMappedFile addMappedRange
  by_cases file : ofFile vmap = true
  · rw [if_pos file]
    cases before : ranges.get? vmap.backingFile with
    | none =>
        rw [before, Option.map_none] at found
        rw [if_pos ⟨file, found⟩]
        unfold SameStarts
        rw [Dict.entries_set_of_absent found, Dict.entries_set_of_absent before, same,
          List.map_append]
        rfl
    | some range =>
        have present : mappedFiles.get? vmap.backingFile ≠ none := by simp [found, before]
        rw [if_neg fun both => present both.2]
        unfold SameStarts
        rw [Dict.entries_set_of_present (by simp [before]), same, List.map_map]
        apply List.map_congr_left
        intro entry member
        simp only [Function.comp_apply]
        split
        · rename_i equal
          have value := Dict.get?_eq_some.mpr member
          rw [equal, before] at value
          cases value
          rfl
        · rfl
  · rw [if_neg file, if_neg fun both => file both.1]
    exact same

/-- Both directions of the resolution know the same files, in the same order, at the same
addresses. -/
theorem mappedFiles_sameStarts (maps : List MemoryMap) :
    SameStarts (mappedFiles maps) (mappedRanges maps) := by
  have along : ∀ (maps : List MemoryMap) mappedFiles ranges, SameStarts mappedFiles ranges →
      SameStarts (maps.foldl addMappedFile mappedFiles) (maps.foldl addMappedRange ranges) := by
    intro maps
    induction maps with
    | nil => exact fun _ _ same => same
    | cons vmap rest ih => exact fun _ _ same => ih _ _ (same.add vmap)
  exact along maps .empty .empty rfl

/-! ### Resolution -/

/-- The name of a symbol, and the offset that is given after a plus sign -/
def splitOffset (symbol : String) : Except ElfError (String × Int) :=
  if '+' ∈ symbol.toList then
    match symbol.toList.splitOn '+' with
    | [name, offset] =>
        match readHex (String.ofList offset) with
        | some n => .ok (String.ofList name, n)
        | none => .error (.invalidLiteral (String.ofList offset))
    | _ => .error (.valueError "too many values to unpack (expected 2)")
  else
    .ok (symbol, 0)

section Resolution

variable (files : Files) (symLvl : Nat)

/-- What is added to the addresses of a file that is mapped at the given one -/
def loadBase (isPie : Bool) (baseAddress : Nat) : Int := if isPie then baseAddress else 0

def symbolInFile (symbol : String) (offset : Int) (file : String × Nat) : Except ElfError Int := do
  let address ← resolveSymbol (files.uncached symLvl) files symLvl file.1 symbol
  return address + loadBase (← files.isPie file.1) file.2 + offset

def resolveSymbolInMaps (symbol : String) (maps : List MemoryMap) : Except ElfError Int := do
  let (symbol, offset) ← splitOffset symbol
  tryEach ElfError.caught (symbolInFile files symLvl symbol offset)
    (.error (.valueError ("Symbol " ++ symbol ++ " not found in the specified mapped file. " ++
      "Please specify a valid symbol.")))
    (mappedFiles maps).entries

def addressInFile (address : Int) (file : String × (Nat × Nat)) : Except ElfError String := do
  resolveAddress (files.uncached symLvl) files symLvl file.1
    (address - loadBase (← files.isPie file.1) file.2.1)

def resolveAddressInMaps (address : Int) (maps : List MemoryMap) : Except ElfError String :=
  tryEach ElfError.caught (addressInFile files symLvl address) (.ok (pyHex address))
    ((mappedRanges maps).entries.filter fun file => file.2.1 ≤ address ∧ address < file.2.2)

end Resolution

/-! ### Definitions -/

section Definitions

variable (files : Files) (symLvl : Nat)

/-- The first definition of a name in the tables of a file -/
def definition? (name path : String) : Option Nat :=
  (tables (files.uncached symLvl) files symLvl path).findSome? (Symbols.addressOf? name)

/-- The first symbol in the tables of a file that contains an address of it -/
def symbolAt? (address : Int) (path : String) : Option (String × Nat) :=
  (tables (files.uncached symLvl) files symLvl path).findSome? (Symbols.containing? address)

/-- The header of the file cannot be read; a search goes on. -/
def Headless (path : String) : Prop := Fails ElfError.caught files.isPie path

/-- The first mapped file that defines the name has it at this address of the process. -/
def FirstDefined (maps : List MemoryMap) (name : String) (start : Int) : Prop :=
  FirstOf (fun file => definition? files symLvl name file.1 = none ∨ Headless files file.1)
    (fun file => ∃ low isPie, definition? files symLvl name file.1 = some low ∧
      files.isPie file.1 = .ok isPie ∧ start = low + loadBase isPie file.2)
    (mappedFiles maps).entries

/-- Symbols are enabled, and the first mapped file with a symbol at the address, among those
whose range it is in, has the symbol of this name there, which starts at this address of the
process. -/
def Symbolised (maps : List MemoryMap) (address : Int) (name : String) (start : Int) : Prop :=
  symLvl ≠ 0 ∧ FirstOf
    (fun file => Headless files file.1 ∨ ∃ isPie, files.isPie file.1 = .ok isPie ∧
      symbolAt? files symLvl (address - loadBase isPie file.2.1) file.1 = none)
    (fun file => ∃ isPie low, files.isPie file.1 = .ok isPie ∧
      symbolAt? files symLvl (address - loadBase isPie file.2.1) file.1 = some (name, low) ∧
      start = low + loadBase isPie file.2.1)
    ((mappedRanges maps).entries.filter fun file => file.2.1 ≤ address ∧ address < file.2.2)

/-- Where an address is resolved to a symbol and an offset, that is resolved to the address. -/
def FeedsBack (maps : List MemoryMap) (address : Int) : Prop :=
  ∀ text, resolveAddressInMaps files symLvl address maps = .ok text → '+' ∈ text.toList →
    resolveSymbolInMaps files symLvl text maps = .ok address

end Definitions

variable {files : Files} {symLvl : Nat} {maps : List MemoryMap} {name : String}
  {address start : Int}

/-! ### Symbols and offsets -/

/-- A number can be told from the symbol before it. -/
theorem plus_not_mem_toHex (n : Nat) : '+' ∉ (toHex n).toList := by
  rw [toHex, String.toList_ofList]
  exact not_mem_toDigits (by decide)

theorem plus_not_mem_pyHex (value : Int) : '+' ∉ (pyHex value).toList := by
  rw [pyHex, String.toList_append, List.mem_append]
  rintro (sign | digits)
  · split at sign
    · exact absurd sign (by decide)
    · exact absurd sign (by decide)
  · exact plus_not_mem_toHex value.natAbs digits

/-- A name that contains no plus sign is split off its offset. -/
theorem splitOffset_text (plain : '+' ∉ name.toList) (n : Nat) :
    splitOffset (name ++ "+" ++ toHex n) = .ok (name, (n : Int)) := by
  have chars : (name ++ "+" ++ toHex n).toList = name.toList ++ '+' :: (toHex n).toList := by
    simp [String.toList_append]
  have split : (name ++ "+" ++ toHex n).toList.splitOn '+' = [name.toList, (toHex n).toList] := by
    rw [chars, List.splitOn_append_cons_self_of_not_mem plain,
      List.splitOn_eq_singleton (plus_not_mem_toHex n)]
  unfold splitOffset
  rw [if_pos (by simp [chars]), split]
  simp only [String.ofList_toList, readHex_toHex]

/-- One that does is split in three parts or more. -/
theorem splitOffset_plus (plus : '+' ∈ name.toList) (n : Nat) :
    splitOffset (name ++ "+" ++ toHex n) =
      .error (.valueError "too many values to unpack (expected 2)") := by
  obtain ⟨front, back, parts⟩ := List.append_of_mem plus
  have chars : (name ++ "+" ++ toHex n).toList =
      front ++ '+' :: (back ++ '+' :: (toHex n).toList) := by
    simp [String.toList_append, parts]
  have split : (name ++ "+" ++ toHex n).toList.splitOn '+' =
      front.splitOn '+' ++ (back.splitOn '+' ++ [(toHex n).toList]) := by
    rw [chars, List.splitOn_append_cons_self, List.splitOn_append_cons_self,
      List.splitOn_eq_singleton (plus_not_mem_toHex n)]
  obtain ⟨first, firsts, begins⟩ := List.exists_cons_of_ne_nil (List.splitOn_ne_nil '+' front)
  obtain ⟨second, seconds, goes⟩ := List.exists_cons_of_ne_nil (List.splitOn_ne_nil '+' back)
  unfold splitOffset
  rw [if_pos (by simp [chars]), split, begins, goes]
  split
  · rename_i same
    have lengths := congrArg List.length same
    simp only [List.length_append, List.length_cons, List.length_nil] at lengths
    omega
  · rfl

/-! ### Symbols in maps -/

theorem definition?_eq_some {path : String} {low : Nat} (enabled : symLvl ≠ 0) :
    resolveSymbol (files.uncached symLvl) files symLvl path name = .ok low ↔
      definition? files symLvl name path = some low := by
  rw [resolveSymbol_eq_ok, and_iff_right enabled]
  rfl

/-- A file is passed over where it does not define the name, or has no header. -/
theorem fails_symbolInFile (enabled : symLvl ≠ 0) (offset : Int) (file : String × Nat) :
    Fails ElfError.caught (symbolInFile files symLvl name offset) file ↔
      definition? files symLvl name file.1 = none ∨ Headless files file.1 := by
  have defined : ∀ low,
      resolveSymbol (files.uncached symLvl) files symLvl file.1 name = .ok low ↔
        definition? files symLvl name file.1 = some low :=
    fun low => definition?_eq_some enabled
  unfold Fails symbolInFile
  cases resolved : resolveSymbol (files.uncached symLvl) files symLvl file.1 name with
  | error e =>
      have caught := Caught.resolveSymbol enabled file.1 name e resolved
      have undefined : definition? files symLvl name file.1 = none := by
        apply Option.eq_none_iff_forall_ne_some.mpr
        intro low found
        cases ((defined low).mpr found).symm.trans resolved
      exact iff_of_true ⟨e, rfl, caught⟩ (.inl undefined)
  | ok low =>
      rw [(defined low).mp resolved]
      unfold Headless Fails
      cases header : files.isPie file.1 with
      | error e => simp [Bind.bind, Except.bind]
      | ok isPie => simp [Bind.bind, Except.bind, pure, Except.pure]

theorem symbolInFile_eq_ok (enabled : symLvl ≠ 0) (offset result : Int) (file : String × Nat) :
    symbolInFile files symLvl name offset file = .ok result ↔
      ∃ low isPie, definition? files symLvl name file.1 = some low ∧
        files.isPie file.1 = .ok isPie ∧ result - offset = low + loadBase isPie file.2 := by
  simp only [← definition?_eq_some enabled]
  unfold symbolInFile
  cases resolveSymbol (files.uncached symLvl) files symLvl file.1 name with
  | error e => simp [Bind.bind, Except.bind]
  | ok low =>
      cases files.isPie file.1 with
      | error e => simp [Bind.bind, Except.bind]
      | ok isPie =>
          simp only [Bind.bind, Except.bind, pure, Except.pure, Except.ok.injEq]
          constructor
          · rintro rfl
            exact ⟨low, isPie, rfl, rfl, by omega⟩
          · rintro ⟨_, _, rfl, rfl, same⟩
            omega

/-- A name and an offset are resolved if and only if the name contains no plus sign and is
defined, to the address that lies as far above that of the first definition. -/
theorem resolveSymbolInMaps_eq_ok (enabled : symLvl ≠ 0) (n : Nat) (result : Int) :
    resolveSymbolInMaps files symLvl (name ++ "+" ++ toHex n) maps = .ok result ↔
      '+' ∉ name.toList ∧ FirstDefined files symLvl maps name (result - n) := by
  by_cases plus : '+' ∈ name.toList
  · unfold resolveSymbolInMaps
    rw [splitOffset_plus plus]
    simp [plus, Bind.bind, Except.bind]
  · unfold resolveSymbolInMaps
    rw [splitOffset_text plus, and_iff_right plus]
    simp only [Bind.bind, Except.bind]
    rw [tryEach_eq_ok_iff, or_iff_left (by simp)]
    exact firstOf_congr (fails_symbolInFile enabled n) (symbolInFile_eq_ok enabled n result)

/-! ### Addresses in maps -/

theorem fails_addressInFile (enabled : symLvl ≠ 0) (file : String × (Nat × Nat)) :
    Fails ElfError.caught (addressInFile files symLvl address) file ↔
      Headless files file.1 ∨ ∃ isPie, files.isPie file.1 = .ok isPie ∧
        symbolAt? files symLvl (address - loadBase isPie file.2.1) file.1 = none := by
  unfold Headless Fails addressInFile
  cases header : files.isPie file.1 with
  | error e => simp [Bind.bind, Except.bind]
  | ok isPie =>
      simp only [Bind.bind, Except.bind, reduceCtorEq, false_and, exists_false, false_or,
        Except.ok.injEq, exists_eq_left']
      cases resolved : resolveAddress (files.uncached symLvl) files symLvl file.1
          (address - loadBase isPie file.2.1) with
      | error e =>
          refine iff_of_true ⟨e, rfl, Caught.resolveAddress _ _ _ e resolved⟩ ?_
          apply Option.eq_none_iff_forall_ne_some.mpr
          intro found hit
          cases ((resolveAddress_eq_ok enabled).mpr ⟨found, hit, rfl⟩).symm.trans resolved
      | ok text =>
          obtain ⟨found, hit, _⟩ := (resolveAddress_eq_ok enabled).mp resolved
          refine iff_of_false (by simp) ?_
          intro none
          cases hit.symm.trans none

/-- The offset from the start of a symbol does not depend on where the file is mapped. -/
theorem symbolText_moved (base : Int) (low : Nat) :
    symbolText (address - base) (name, low) =
      name ++ "+" ++ toHex (address - (low + base)).toNat := by
  unfold symbolText
  rw [show address - base - (low : Int) = address - (low + base) by omega]

theorem addressInFile_eq_ok (enabled : symLvl ≠ 0) (text : String) (file : String × (Nat × Nat)) :
    addressInFile files symLvl address file = .ok text ↔
      ∃ name start, text = name ++ "+" ++ toHex (address - start).toNat ∧
        ∃ isPie low, files.isPie file.1 = .ok isPie ∧
          symbolAt? files symLvl (address - loadBase isPie file.2.1) file.1 = some (name, low) ∧
          start = low + loadBase isPie file.2.1 := by
  unfold addressInFile
  cases header : files.isPie file.1 with
  | error e => simp [Bind.bind, Except.bind]
  | ok isPie =>
      simp only [Bind.bind, Except.bind]
      rw [resolveAddress_eq_ok enabled]
      constructor
      · rintro ⟨⟨name, low⟩, hit, rfl⟩
        exact ⟨name, _, symbolText_moved _ low, isPie, low, rfl, hit, rfl⟩
      · rintro ⟨name, start, rfl, _, low, same, hit, rfl⟩
        cases same
        exact ⟨(name, low), hit, symbolText_moved _ low⟩

/-- While symbols are disabled, no address is resolved to one. -/
theorem plus_not_mem_disabled {text : String}
    (resolved : resolveAddressInMaps files 0 address maps = .ok text) : '+' ∉ text.toList := by
  rcases tryEach_eq_ok_iff.mp resolved with ⟨_, file, _, _, _, returned⟩ | ⟨_, same⟩
  · unfold addressInFile at returned
    cases header : files.isPie file.1 with
    | error e =>
        rw [header] at returned
        cases returned
    | ok isPie =>
        rw [header] at returned
        cases returned
        exact plus_not_mem_pyHex _
  · cases same
    exact plus_not_mem_pyHex address

/-- An address is resolved to a text with a plus sign if and only if it lies in a symbol. -/
theorem resolveAddressInMaps_eq_symbol (text : String) :
    resolveAddressInMaps files symLvl address maps = .ok text ∧ '+' ∈ text.toList ↔
      ∃ name start, text = name ++ "+" ++ toHex (address - start).toNat ∧
        Symbolised files symLvl maps address name start := by
  by_cases enabled : symLvl ≠ 0
  · unfold Symbolised resolveAddressInMaps
    rw [tryEach_eq_ok_iff,
      firstOf_congr (fails_addressInFile enabled) (addressInFile_eq_ok enabled text)]
    simp only [firstOf_exists, firstOf_and, enabled, not_false_iff, true_and, ne_eq]
    constructor
    · rintro ⟨found | ⟨_, same⟩, plus⟩
      · exact found
      · cases same
        exact absurd plus (plus_not_mem_pyHex address)
    · rintro ⟨name, start, rfl, found⟩
      exact ⟨.inl ⟨name, start, rfl, found⟩, by simp [String.toList_append]⟩
  · obtain rfl := not_not.mp enabled
    constructor
    · rintro ⟨resolved, plus⟩
      exact absurd plus (plus_not_mem_disabled resolved)
    · rintro ⟨_, _, _, on, _⟩
      exact absurd rfl on

/-- An address lies at its symbol's start or above it. -/
theorem Symbolised.le (symbolised : Symbolised files symLvl maps address name start) :
    start ≤ address := by
  obtain ⟨_, _, file, _, _, _, isPie, low, _, hit, rfl⟩ := symbolised
  obtain ⟨symbols, _, contains⟩ := List.exists_of_findSome?_eq_some hit
  obtain ⟨entry, found, same⟩ := Option.map_eq_some_iff.mp contains
  have inside := List.find?_some found
  simp only [decide_eq_true_eq] at inside
  cases same
  omega

/-- An address that is resolved to a symbol and an offset is resolved back if and only if the
symbol's name contains no plus sign, and its first definition in the mapped files is at the
address of the symbol. -/
theorem feedsBack_iff (files : Files) (symLvl : Nat) (maps : List MemoryMap) (address : Int) :
    FeedsBack files symLvl maps address ↔
      ∀ name start, Symbolised files symLvl maps address name start →
        '+' ∉ name.toList ∧ FirstDefined files symLvl maps name start := by
  have back : ∀ name start, Symbolised files symLvl maps address name start →
      (resolveSymbolInMaps files symLvl (name ++ "+" ++ toHex (address - start).toNat) maps =
        .ok address ↔ '+' ∉ name.toList ∧ FirstDefined files symLvl maps name start) := by
    intro name start symbolised
    have above := symbolised.le
    rw [resolveSymbolInMaps_eq_ok symbolised.1,
      show address - ((address - start).toNat : Int) = start by omega]
  constructor
  · intro feedsBack name start symbolised
    have resolved := (resolveAddressInMaps_eq_symbol _).mpr ⟨name, start, rfl, symbolised⟩
    exact (back name start symbolised).mp (feedsBack _ resolved.1 resolved.2)
  · intro unambiguous text resolved plus
    obtain ⟨name, start, rfl, symbolised⟩ :=
      (resolveAddressInMaps_eq_symbol text).mp ⟨resolved, plus⟩
    exact (back name start symbolised).mpr (unambiguous name start symbolised)

/-! ### An operator -/

/-- `_Zpl1VS_` -/
def mangledPlus : CString := [95, 90, 112, 108, 49, 86, 83, 95]

def plusSymbol : ElfSym where
  name := some mangledPlus
  value := 0x1000
  size := 0x20

def plusElf : ElfFile where
  symbols := [plusSymbol]
  dies := []
  buildId := none
  debugFile := none

/-- A program with an operator for vectors -/
def vectorFiles : Files where
  file := fun path => if path = "/bin/vectors" then some plusElf else none
  demangle := fun name =>
    if name = mangledPlus then some "operator+(V, V)".toUTF8.data.toList else none
  localDebugPath := fun folder debugFile =>
    "/usr/lib/debug/.build-id/" ++ folder ++ "/" ++ debugFile
  debuginfod := fun _ => none
  isPie := fun _ => .ok true

theorem vectorsEnd_le : 0x402000 ≤ 2 ^ 64 := by decide

def vectorMaps : List MemoryMap := [⟨0x400000, 0x402000, "/bin/vectors", vectorsEnd_le⟩]

/-- The name is split at its own plus sign. -/
theorem operator_not_fed_back :
    resolveAddressInMaps vectorFiles 3 0x401004 vectorMaps = .ok "operator+(V, V)+4" ∧
      ¬ FeedsBack vectorFiles 3 vectorMaps 0x401004 := by
  have resolved : resolveAddressInMaps vectorFiles 3 0x401004 vectorMaps =
      .ok "operator+(V, V)+4" := by rfl
  refine ⟨resolved, ?_⟩
  intro feedsBack
  have again := feedsBack _ resolved (by decide)
  have raised : resolveSymbolInMaps vectorFiles 3 "operator+(V, V)+4" vectorMaps =
      .error (.valueError "too many values to unpack (expected 2)") := by rfl
  cases again.symm.trans raised

end Libdebug.Utils
