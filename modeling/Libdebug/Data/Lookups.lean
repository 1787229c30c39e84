import Libdebug.Data.MemoryKeys
import Libdebug.Foundation.Questions

/-!
Resolution as the debugger looks the process up: the maps, the path of the executable and the
name of the process are asked for one after the other, and each only where it is needed. In a
process that does not change meanwhile the lookups give what `Process.resolveAddress` and
`Process.resolveSymbol` give.
-/

namespace Libdebug.Data

open Libdebug.Foundation

/-- A file of `/proc/pid` -/
inductive Source where
  /-- `get_process_maps` -/
  | maps
  /-- `_get_process_full_path` -/
  | fullPath
  /-- `_get_process_name` -/
  | name
  deriving DecidableEq

abbrev Source.Value : Source → Type
  | .maps => List MemoryMap
  | .fullPath => String
  | .name => String

instance : ∀ source : Source, DecidableEq source.Value
  | .maps => inferInstanceAs (DecidableEq (List MemoryMap))
  | .fullPath => inferInstanceAs (DecidableEq String)
  | .name => inferInstanceAs (DecidableEq String)

/-- What `/proc/pid` shows of a process -/
structure Image where
  maps : List MemoryMap
  fullPath : String
  name : String

def Image.look (image : Image) : (source : Source) → source.Value
  | .maps => image.maps
  | .fullPath => image.fullPath
  | .name => image.name

abbrev Resolving := AskingT AccessError Source Source.Value

/-- What an access or a breakpoint has to resolve before it touches memory -/
inductive Target where
  /-- The positions of a key, of which a slice has two, or the position of a breakpoint -/
  | positions (positions : List Position) (file : String) (skipAbsoluteAddressValidation : Bool)
  /-- The breakpoint of `_setup_parent` -/
  | entryPoint (address : Int)

/-- The maps of a file among those looked up -/
def mapsOf (maps : List MemoryMap) (backingFile : String) : Except AccessError FileMaps :=
  (Process.mk maps "" "" fun _ _ => .error .typeError).filterMaps backingFile

/-- `normalize_and_validate_address(entry_point, self.maps())` -/
def resolveEntryPoint (address : Int) (maps : List MemoryMap) : Except AccessError (List Int) :=
  if found : maps = [] then .error .indexError
  else (normalizeAndValidateAddress address ⟨maps, found⟩).map fun resolved => [resolved]

section Programs

variable (symbols : String → List MemoryMap → Except AccessError Int)

namespace Resolving

def getProcessMaps : Resolving (List MemoryMap) := AskingT.ask AccessError Source.maps

def getProcessFullPath : Resolving String := AskingT.ask AccessError Source.fullPath

def getProcessName : Resolving String := AskingT.ask AccessError Source.name

def fileOf (backingFile : String) : Resolving String := do
  let fullBackingPath ← getProcessFullPath
  if backingFile = fullBackingPath ∨ backingFile = "binary" then
    return fullBackingPath
  else
    let name ← getProcessName
    if backingFile = name then return fullBackingPath else return backingFile

def resolveAddress (address : Int) (backingFile : String)
    (skipAbsoluteAddressValidation : Bool) : Resolving Int := do
  if skipAbsoluteAddressValidation ∧ backingFile = "absolute" then
    return address
  else
    let maps ← getProcessMaps
    if backingFile = "hybrid" ∨ backingFile = "absolute" then
      if checkAbsoluteAddress address maps then
        return address
      else if backingFile = "absolute" then
        throw (.valueError ("The specified absolute address does not exist. " ++
          "Check the address or specify a backing file."))
      else
        let backingFile ← getProcessFullPath
        ofExcept ((mapsOf maps backingFile).bind (normalizeAndValidateAddress address))
    else
      let backingFile ← fileOf backingFile
      ofExcept ((mapsOf maps backingFile).bind (normalizeAndValidateAddress address))

def resolveSymbol (symbol backingFile : String) : Resolving Int := do
  let maps ← getProcessMaps
  if backingFile = "absolute" then
    throw (.valueError "Cannot use \x60absolute\x60 backing file with symbols.")
  else if backingFile = "hybrid" then
    let backingFile ← getProcessFullPath
    ofExcept ((mapsOf maps backingFile).bind fun found => symbols symbol found.val)
  else
    let backingFile ← fileOf backingFile
    ofExcept ((mapsOf maps backingFile).bind fun found => symbols symbol found.val)

def resolvePosition (file : String) (skipAbsoluteAddressValidation : Bool) :
    Position → Resolving Int
  | .int address => resolveAddress address file skipAbsoluteAddressValidation
  | .str symbol => resolveSymbol symbols symbol file

def resolveAll (file : String) (skipAbsoluteAddressValidation : Bool) :
    List Position → Resolving (List Int)
  | [] => return []
  | position :: rest => do
      let address ← resolvePosition symbols file skipAbsoluteAddressValidation position
      let addresses ← resolveAll file skipAbsoluteAddressValidation rest
      return address :: addresses

def resolve : Target → Resolving (List Int)
  | .positions positions file skip => resolveAll symbols file skip positions
  | .entryPoint address => do
      let maps ← getProcessMaps
      ofExcept (resolveEntryPoint address maps)

end Resolving

/-- What the debugger would know of a process that looks like this. -/
def Image.process (image : Image) : Process where
  maps := image.maps
  fullPath := image.fullPath
  name := image.name
  resolveSymbolInMaps := symbols

/-- The addresses that the positions stand for in a process. -/
def Process.resolveAll (process : Process) (file : String) (skip : Bool) :
    List Position → Except AccessError (List Int)
  | [] => return []
  | .int address :: rest => do
      return (← process.resolveAddress address file skip) :: (← process.resolveAll file skip rest)
  | .str symbol :: rest => do
      return (← process.resolveSymbol symbol file) :: (← process.resolveAll file skip rest)

def Process.resolve (process : Process) : Target → Except AccessError (List Int)
  | .positions positions file skip => process.resolveAll file skip positions
  | .entryPoint address => resolveEntryPoint address process.maps

end Programs

/-! ### In a process that does not change -/

section Answers

variable (symbols : String → List MemoryMap → Except AccessError Int) (image : Image)
  (backingFile : String) (skip : Bool)

open AskingT

@[simp] theorem answered_getProcessMaps :
    answered image.look Resolving.getProcessMaps = .ok image.maps := rfl

@[simp] theorem answered_getProcessFullPath :
    answered image.look Resolving.getProcessFullPath = .ok image.fullPath := rfl

@[simp] theorem answered_getProcessName :
    answered image.look Resolving.getProcessName = .ok image.name := rfl

theorem answered_fileOf :
    answered image.look (Resolving.fileOf backingFile) =
      .ok ((image.process symbols).fileOf backingFile) := by
  unfold Resolving.fileOf
  simp only [answered_bind, answered_getProcessFullPath, answered_ite, answered_pure,
    answered_getProcessName, Except.bind]
  change _ = Except.ok (if backingFile = image.fullPath ∨ backingFile = "binary" ∨
    backingFile = image.name then image.fullPath else backingFile)
  by_cases path : backingFile = image.fullPath ∨ backingFile = "binary"
  · rw [if_pos path, if_pos (or_assoc.mp (.inl path))]
  · by_cases name : backingFile = image.name
    · rw [if_neg path, if_pos name, if_pos (.inr (.inr name))]
    · rw [if_neg path, if_neg name, if_neg (by simpa [← or_assoc, name] using path)]

theorem answered_resolveAddress (address : Int) :
    answered image.look (Resolving.resolveAddress address backingFile skip) =
      (image.process symbols).resolveAddress address backingFile skip := by
  unfold Resolving.resolveAddress Process.resolveAddress
  simp only [answered_bind, answered_ite, answered_pure, answered_throw, answered_ofExcept,
    answered_getProcessMaps, answered_getProcessFullPath, answered_fileOf symbols, Except.bind]
  rfl

theorem answered_resolveSymbol (symbol : String) :
    answered image.look (Resolving.resolveSymbol symbols symbol backingFile) =
      (image.process symbols).resolveSymbol symbol backingFile := by
  unfold Resolving.resolveSymbol Process.resolveSymbol
  simp only [answered_bind, answered_ite, answered_throw, answered_ofExcept,
    answered_getProcessMaps, answered_getProcessFullPath, answered_fileOf symbols, Except.bind]
  rfl

theorem answered_resolveAll (positions : List Position) :
    answered image.look (Resolving.resolveAll symbols backingFile skip positions) =
      (image.process symbols).resolveAll backingFile skip positions := by
  induction positions with
  | nil => rfl
  | cons position rest ih =>
      rw [Resolving.resolveAll]
      simp only [answered_bind, ih, answered_pure]
      cases position with
      | int address =>
          rw [Resolving.resolvePosition, answered_resolveAddress symbols]
          rfl
      | str symbol =>
          rw [Resolving.resolvePosition, answered_resolveSymbol]
          rfl

/-- The lookups find what the resolution finds in the process as it is. -/
theorem answered_resolve (target : Target) :
    answered image.look (Resolving.resolve symbols target) =
      (image.process symbols).resolve target := by
  cases target with
  | positions positions file skip => exact answered_resolveAll symbols image file skip positions
  | entryPoint address =>
      rw [Resolving.resolve, answered_bind, answered_getProcessMaps]
      exact answered_ofExcept (resolveEntryPoint address image.maps)

end Answers

end Libdebug.Data
