import Libdebug.Data.AddressResolution
import Libdebug.Foundation.Dict
import Libdebug.Foundation.Numerals

/-!
The symbols of ELF files (`elf_utils.py` and the C code it calls, `debug_sym_cffi_source.c`).

The symbol level says what is read: the symbol tables, from level 2 on the DWARF information of
the file, from level 3 on the external debug file, from level 4 on the DWARF information of that,
and at level 5 the file of debuginfod. The functions are written over the monad in which tables
are read, so that they can be run with and without caches.
-/

namespace Libdebug.Utils

open Libdebug.Foundation Libdebug.Data

/-- A text as C has it, without its terminating zero -/
abbrev CString := List UInt8

inductive ElfError where
  | osError (message : String)
  | valueError (message : String)
  /-- A `ValueError`, of `int(text, 16)` -/
  | invalidLiteral (text : String)
  /-- A `ValueError`, of `bytes.decode("utf-8")` -/
  | unicodeDecodeError (bytes : CString)
  /-- Any other exception -/
  | exception (message : String)
  deriving DecidableEq

/-- `except OSError` or `except ValueError` -/
def ElfError.caught : ElfError → Bool
  | .exception _ => false
  | _ => true

/-! ### Symbol lists -/

/-- A symbol of a table of type `SHT_SYMTAB` or `SHT_DYNSYM` -/
structure ElfSym where
  /-- Nothing where `elf_strptr` finds no text -/
  name : Option CString
  value : UInt64
  size : UInt64

inductive DieTag where
  | dwTagSubprogram
  | dwTagVariable
  | other
  deriving DecidableEq

/-- What `process_die` reads of a DIE; an address that is missing is zero. -/
structure Die where
  tag : DieTag
  name : Option CString
  lowPc : UInt64
  highPc : UInt64
  /-- `DW_AT_high_pc` is a constant: it counts from `DW_AT_low_pc`. -/
  highPcIsOffset : Bool

/-- What libelf and libdwarf read of a file -/
structure ElfFile where
  /-- The symbols of all its tables, in order -/
  symbols : List ElfSym
  /-- The DIEs that the walk over the compilation units comes to -/
  dies : List Die
  /-- The note `.note.gnu.build-id`, in hexadecimal digits -/
  buildId : Option CString
  /-- The section `.gnu_debuglink` or `.gnu_debugaltlink` -/
  debugFile : Option CString

structure SymbolInfo where
  name : CString
  highPc : UInt64
  lowPc : UInt64

/-- The files of the system, and what is read of them by libraries -/
structure Files where
  /-- A file that can be opened and read -/
  file : String → Option ElfFile
  /-- `cplus_demangle_v3` -/
  demangle : CString → Option CString
  /-- `(LOCAL_DEBUG_PATH / folder / debug_file).resolve()` -/
  localDebugPath : String → String → String
  /-- The path of `_debuginfod(buildid)`, if it exists -/
  debuginfod : String → Option String
  /-- `is_pie`, by `elftools` -/
  isPie : String → Except ElfError Bool

namespace Files

variable (files : Files)

/-- The list grows at its head. -/
def addSymbolInfo (head : List SymbolInfo) (name : CString) (lowPc highPc : UInt64) :
    List SymbolInfo :=
  ⟨(files.demangle name).getD name, highPc, lowPc⟩ :: head

def processSymbol (head : List SymbolInfo) (sym : ElfSym) : List SymbolInfo :=
  match sym.name with
  | none => head
  | some name =>
      let highPc := sym.value + sym.size
      if highPc ≠ 0 then files.addSymbolInfo head name sym.value highPc else head

def processSymbolTables (elf : ElfFile) : List SymbolInfo :=
  elf.symbols.foldl files.processSymbol []

def processDie (head : List SymbolInfo) (die : Die) : List SymbolInfo :=
  if die.tag = .dwTagSubprogram ∨ die.tag = .dwTagVariable then
    match die.name with
    | none => head
    | some name =>
        if die.lowPc ≠ 0 ∧ die.highPc ≠ 0 then
          files.addSymbolInfo head name die.lowPc
            (if die.highPcIsOffset then die.highPc + die.lowPc else die.highPc)
        else
          head
  else
    head

def retrieveFromDwarf (head : List SymbolInfo) (elf : ElfFile) : List SymbolInfo :=
  elf.dies.foldl files.processDie head

def readElfInfo (path : String) (debugInfoLevel : Nat) : List SymbolInfo :=
  match files.file path with
  | none => []
  | some elf =>
      let head := files.processSymbolTables elf
      if debugInfoLevel > 1 then files.retrieveFromDwarf head elf else head

def collectExternalSymbols (path : String) (debugInfoLevel : Nat) : List SymbolInfo :=
  match files.file path with
  | none => []
  | some elf =>
      let head := files.processSymbolTables elf
      if debugInfoLevel > 3 then files.retrieveFromDwarf head elf else head

end Files

/-! ### Tables -/

/-- `symbols`: where each symbol starts and ends -/
abbrev Symbols := Dict String (Nat × Nat)

/-- `ffi.string(text).decode("utf-8")` -/
def decode (text : CString) : Except ElfError String :=
  match String.fromUTF8? ⟨text.toArray⟩ with
  | some decoded => .ok decoded
  | none => .error (.unicodeDecodeError text)

def addSymbol (symbols : Symbols) (cursor : SymbolInfo) : Except ElfError Symbols := do
  let symbolName ← decode cursor.name
  return symbols.set symbolName (cursor.lowPc.toNat, cursor.highPc.toNat)

def symbolsOf (head : List SymbolInfo) : Except ElfError Symbols :=
  head.foldlM addSymbol .empty

def decodeOptional : Option CString → Except ElfError (Option String)
  | none => .ok none
  | some text => return some (← decode text)

structure ElfInfo where
  symbols : Symbols
  buildid : Option String
  debugFile : Option String

namespace Files

variable (files : Files)

/-- `_collect_external_info`, at the symbol level -/
def collectExternalInfo (path : String) (symLvl : Nat) : Except ElfError Symbols :=
  symbolsOf (files.collectExternalSymbols path symLvl)

/-- `_parse_elf_file` -/
def parseElfFile (path : String) (debugInfoLevel : Nat) : Except ElfError ElfInfo := do
  let symbols ← symbolsOf (files.readElfInfo path debugInfoLevel)
  if debugInfoLevel > 2 then
    let buildid ← decodeOptional ((files.file path).bind ElfFile.buildId)
    let debugFile ← decodeOptional ((files.file path).bind ElfFile.debugFile)
    return ⟨symbols, buildid, debugFile⟩
  else
    return ⟨symbols, none, none⟩

/-- The debug files in which a search goes on, in order: the local one, and that of debuginfod.
An empty text counts as none. -/
def externalFiles (info : ElfInfo) (symLvl : Nat) : List String :=
  match info.buildid.filter (· ≠ "") with
  | none => []
  | some buildid =>
      (match info.debugFile.filter (· ≠ "") with
        | none => []
        | some debugFile =>
            if symLvl > 2 then
              [files.localDebugPath (String.ofList (buildid.toList.take 2)) debugFile]
            else
              []) ++
        if symLvl > 4 then (files.debuginfod buildid).toList else []

end Files

/-! ### Resolution -/

/-- How tables are read -/
structure Readers (m : Type → Type) where
  parseElfFile : String → Nat → m ElfInfo
  collectExternalInfo : String → m Symbols

/-- `symbols[symbol][0]`, if there is such a symbol -/
def Symbols.addressOf? (symbol : String) (symbols : Symbols) : Option Nat :=
  (symbols.get? symbol).map Prod.fst

/-- The first symbol that contains the address, and where it starts -/
def Symbols.containing? (address : Int) (symbols : Symbols) : Option (String × Nat) :=
  (symbols.entries.find? fun entry => entry.2.1 ≤ address ∧ address < entry.2.2).map fun entry =>
    (entry.1, entry.2.1)

/-- `f"{symbol}+{address-symbol_start:x}"` -/
def symbolText (address : Int) (found : String × Nat) : String :=
  found.1 ++ "+" ++ toHex (address - found.2).toNat

section Search

variable {m : Type → Type} [Monad m] {α : Type} (readers : Readers m) (find : Symbols → Option α)

def searchExternal : List String → m (Option α)
  | [] => return none
  | path :: rest => do
      match find (← readers.collectExternalInfo path) with
      | some found => return some found
      | none => searchExternal rest

/-- The first table in which something is found decides: that of the file itself, then those of
its debug files. A table is read when the search comes to it. -/
def search (files : Files) (symLvl : Nat) (path : String) : m (Option α) := do
  let info ← readers.parseElfFile path symLvl
  match find info.symbols with
  | some found => return some found
  | none => searchExternal readers find (files.externalFiles info symLvl)

variable [MonadExceptOf ElfError m]

/-- `resolve_symbol`, at the symbol level -/
def resolveSymbol (files : Files) (symLvl : Nat) (path symbol : String) : m Nat := do
  if symLvl = 0 then
    throw (.exception ("Symbol resolution is disabled. Please enable it by setting the sym_lvl " ++
      "libcontext parameter to a value greater than 0."))
  else
    match ← search readers (Symbols.addressOf? symbol) files symLvl path with
    | some address => return address
    | none =>
        throw (.valueError ("Symbol " ++ symbol ++ " not found in " ++ path ++
          ". Please specify a valid symbol."))

/-- `resolve_address`, at the symbol level -/
def resolveAddress (files : Files) (symLvl : Nat) (path : String) (address : Int) : m String := do
  if symLvl = 0 then
    return pyHex address
  else
    match ← search readers (Symbols.containing? address) files symLvl path with
    | some found => return symbolText address found
    | none =>
        throw (.valueError ("Address " ++ pyHex address ++ " not found in " ++ path ++
          ". Please specify a valid address."))

end Search

/-! ### Without caches -/

/-- Tables are read from the files, and those of each debug file at a level of its own. -/
def Files.readers (files : Files) (symLvlOf : String → Nat) : Readers (Except ElfError) where
  parseElfFile := files.parseElfFile
  collectExternalInfo path := files.collectExternalInfo path (symLvlOf path)

/-- All tables are read at the present level. -/
abbrev Files.uncached (files : Files) (symLvl : Nat) : Readers (Except ElfError) :=
  files.readers fun _ => symLvl

section Tables

variable {α : Type} (readers : Readers (Except ElfError))

/-- The tables of the debug files, up to the first that cannot be read -/
def readable : List String → List Symbols
  | [] => []
  | path :: rest =>
      match readers.collectExternalInfo path with
      | .error _ => []
      | .ok symbols => symbols :: readable rest

/-- The tables of a file in the order in which they are searched, up to the first that cannot be
read -/
def tables (files : Files) (symLvl : Nat) (path : String) : List Symbols :=
  match readers.parseElfFile path symLvl with
  | .error _ => []
  | .ok info => info.symbols :: readable readers (files.externalFiles info symLvl)

variable {readers} {find : Symbols → Option α} {found : α} {files : Files} {symLvl : Nat}
  {path symbol : String} {address : Int} {paths : List String}

theorem searchExternal_eq_some :
    searchExternal readers find paths = .ok (some found) ↔
      (readable readers paths).findSome? find = some found := by
  induction paths with
  | nil => simp [searchExternal, readable, pure, Except.pure]
  | cons path rest ih =>
      cases read : readers.collectExternalInfo path with
      | error e =>
          simp [searchExternal, readable, read, Bind.bind, Except.bind]
      | ok symbols =>
          simp only [searchExternal, readable, read, List.findSome?_cons]
          cases hit : find symbols with
          | none => simpa [hit, Bind.bind, Except.bind] using ih
          | some first => simp [hit, Bind.bind, Except.bind, pure, Except.pure]

/-- A search finds what the first of the tables has that has anything. -/
theorem search_eq_some :
    search readers find files symLvl path = .ok (some found) ↔
      (tables readers files symLvl path).findSome? find = some found := by
  cases parsed : readers.parseElfFile path symLvl with
  | error e =>
      simp [search, tables, parsed, Bind.bind, Except.bind]
  | ok info =>
      simp only [search, tables, parsed, List.findSome?_cons]
      cases hit : find info.symbols with
      | none => simpa [hit, Bind.bind, Except.bind] using searchExternal_eq_some
      | some first => simp [hit, Bind.bind, Except.bind, pure, Except.pure]

theorem resolveSymbol_eq_ok {result : Nat} :
    resolveSymbol readers files symLvl path symbol = .ok result ↔
      symLvl ≠ 0 ∧
        (tables readers files symLvl path).findSome? (Symbols.addressOf? symbol) =
          some result := by
  rw [← search_eq_some]
  unfold resolveSymbol
  by_cases disabled : symLvl = 0
  · rw [if_pos disabled]
    exact iff_of_false (by simp [throw, throwThe, MonadExceptOf.throw]) (by simp [disabled])
  · rw [if_neg disabled, and_iff_right disabled]
    rcases searched : search readers (Symbols.addressOf? symbol) files symLvl path with
      e | _ | first
    · simp [Bind.bind, Except.bind]
    · simp [Bind.bind, Except.bind, throw, throwThe, MonadExceptOf.throw]
    · simp [Bind.bind, Except.bind, pure, Except.pure]

theorem resolveAddress_eq_ok {result : String} (enabled : symLvl ≠ 0) :
    resolveAddress readers files symLvl path address = .ok result ↔
      ∃ found,
        (tables readers files symLvl path).findSome? (Symbols.containing? address) =
          some found ∧ symbolText address found = result := by
  simp only [← search_eq_some]
  unfold resolveAddress
  rw [if_neg enabled]
  rcases searched : search readers (Symbols.containing? address) files symLvl path with
    e | _ | first
  · simp [Bind.bind, Except.bind]
  · simp [Bind.bind, Except.bind, throw, throwThe, MonadExceptOf.throw]
  · simp [Bind.bind, Except.bind, pure, Except.pure]

end Tables

/-! ### Errors -/

/-- All errors of a computation are of kinds that the callers catch. -/
def Caught {α : Type} (p : Except ElfError α) : Prop := ∀ e, p = .error e → e.caught = true

namespace Caught

variable {α β : Type}

theorem ok (a : α) : Caught (.ok a) := by
  intro e raised
  cases raised

theorem error {e : ElfError} (caught : e.caught = true) :
    Caught (.error e : Except ElfError α) := by
  intro e' raised
  cases raised
  exact caught

theorem bind {p : Except ElfError α} {f : α → Except ElfError β} (first : Caught p)
    (second : ∀ a, Caught (f a)) : Caught (p >>= f) := by
  cases p with
  | error e => exact error (first e rfl)
  | ok a => exact second a

theorem decode (text : CString) : Caught (decode text) := by
  unfold Utils.decode
  split
  · exact ok _
  · exact error rfl

theorem decodeOptional (text : Option CString) : Caught (decodeOptional text) := by
  cases text with
  | none => exact ok none
  | some text => exact (decode text).bind fun decoded => ok (some decoded)

theorem foldlM {f : β → α → Except ElfError β} (step : ∀ b a, Caught (f b a))
    (start : β) (xs : List α) : Caught (xs.foldlM f start) := by
  induction xs generalizing start with
  | nil => exact ok start
  | cons x rest ih =>
      rw [List.foldlM_cons]
      exact (step start x).bind ih

theorem symbolsOf (head : List SymbolInfo) : Caught (symbolsOf head) :=
  foldlM (f := addSymbol) (fun _ cursor => (decode cursor.name).bind fun _ => ok _) Dict.empty head

variable {files : Files}

theorem parseElfFile (path : String) (level : Nat) : Caught (files.parseElfFile path level) := by
  apply (symbolsOf _).bind
  intro symbols
  split
  · exact (decodeOptional _).bind fun _ => (decodeOptional _).bind fun _ => ok _
  · exact ok _

variable {symLvlOf : String → Nat} {find : Symbols → Option α}

theorem searchExternal (paths : List String) :
    Caught (searchExternal (files.readers symLvlOf) find paths) := by
  induction paths with
  | nil => exact ok none
  | cons path rest ih =>
      apply (symbolsOf _).bind
      intro symbols
      split
      · exact ok _
      · exact ih

theorem search (level : Nat) (path : String) :
    Caught (search (files.readers symLvlOf) find files level path) := by
  apply (parseElfFile path level).bind
  intro info
  split
  · exact ok _
  · exact searchExternal _

/-- While symbol resolution is enabled, its errors are caught. -/
theorem resolveSymbol {symLvl : Nat} (enabled : symLvl ≠ 0) (path symbol : String) :
    Caught (resolveSymbol (files.readers symLvlOf) files symLvl path symbol) := by
  unfold Utils.resolveSymbol
  rw [if_neg enabled]
  apply (search symLvl path).bind
  intro found
  cases found with
  | none => exact error rfl
  | some address => exact ok _

theorem resolveAddress (symLvl : Nat) (path : String) (address : Int) :
    Caught (resolveAddress (files.readers symLvlOf) files symLvl path address) := by
  unfold Utils.resolveAddress
  by_cases disabled : symLvl = 0
  · rw [if_pos disabled]
    exact ok _
  · rw [if_neg disabled]
    apply (search symLvl path).bind
    intro found
    cases found with
    | none => exact error rfl
    | some found => exact ok _

end Caught

end Libdebug.Utils
