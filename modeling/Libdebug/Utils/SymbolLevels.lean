import Libdebug.Foundation.Memo
import Libdebug.Foundation.Runs
import Libdebug.Utils.ElfUtils

/-!
Symbol resolution over whole runs, while the symbol level of the library changes.

`elf_utils.py` remembers results with `functools.cache`: tables of ELF files by path and level,
tables of debug files by their path alone, and answers by path and question. Errors are not
remembered. Beside each result this development notes the level at which it was stored; nothing
that is modelled from the source reads it.
-/

namespace Libdebug.Utils.SymbolLevels

open Libdebug.Foundation Libdebug.Data

/-! ### Calls -/

inductive Query where
  | symbol (path symbol : String)
  | address (path : String) (address : Int)
  deriving DecidableEq

inductive Value where
  | address (address : Nat)
  | text (text : String)
  deriving DecidableEq

/-- `resolve_symbol` or `resolve_address` -/
def resolve {m : Type → Type} [Monad m] [MonadExceptOf ElfError m] (readers : Readers m)
    (files : Files) (symLvl : Nat) : Query → m Value
  | .symbol path symbol => do
      return .address (← resolveSymbol readers files symLvl path symbol)
  | .address path address => do
      return .text (← resolveAddress readers files symLvl path address)

/-- What a call gives without caches -/
def uncached (files : Files) (symLvl : Nat) (query : Query) : Except ElfError Value :=
  resolve (files.uncached symLvl) files symLvl query

/-! ### Caches -/

structure Caches where
  /-- `_parse_elf_file` -/
  parsed : Dict (String × Nat) ElfInfo
  /-- `_collect_external_info` -/
  collected : Dict String (Nat × Symbols)
  /-- `resolve_symbol` and `resolve_address`, whose keys are of different kinds -/
  answers : Dict Query (Nat × Value)

def Caches.empty : Caches := ⟨.empty, .empty, .empty⟩

def parsedSlot : Slot Caches (String × Nat) ElfInfo where
  lookup caches := caches.parsed.get?
  remember caches key info := { caches with parsed := caches.parsed.set key info }

def collectedSlot : Slot Caches String (Nat × Symbols) where
  lookup caches := caches.collected.get?
  remember caches path found := { caches with collected := caches.collected.set path found }

def answersSlot : Slot Caches Query (Nat × Value) where
  lookup caches := caches.answers.get?
  remember caches query found := { caches with answers := caches.answers.set query found }

section Cached

variable (files : Files) (symLvl : Nat)

def cachedReaders : Readers (EStateM ElfError Caches) where
  parseElfFile path level :=
    cached parsedSlot (path, level) (ofExcept (files.parseElfFile path level))
  collectExternalInfo path :=
    stamped collectedSlot symLvl path (ofExcept (files.collectExternalInfo path symLvl))

def cachedResolve (query : Query) : EStateM ElfError Caches Value :=
  stamped answersSlot symLvl query (resolve (cachedReaders files symLvl) files symLvl query)

end Cached

/-! ### Runs -/

/-- A call, the level at which it was made, and what it gave -/
structure Call where
  symLvl : Nat
  query : Query
  result : Except ElfError Value

structure State where
  /-- `libcontext.sym_lvl` -/
  symLvl : Nat
  /-- What the temporary contexts restore, the innermost first -/
  saved : List Nat
  caches : Caches
  /-- What has been called so far -/
  calls : List Call

def State.initial : State where
  symLvl := 3
  saved := []
  caches := .empty
  calls := []

inductive Event where
  | setSymLvl (value : Int)
  /-- `with libcontext.tmp(...)`; the symbol level may be among what is changed. -/
  | enterTmp (value : Option Int)
  | leaveTmp
  | call (query : Query)

/-- The setter raises `ValueError` for any other value. -/
abbrev ValidLevel (value : Int) : Prop := 0 ≤ value ∧ value ≤ 5

def step (files : Files) (s : State) : Event → Option State
  | .setSymLvl value =>
      some (if ValidLevel value then { s with symLvl := value.toNat } else s)
  | .enterTmp none => some { s with saved := s.symLvl :: s.saved }
  | .enterTmp (some value) =>
      -- the context is not entered where the setter raises
      some (if ValidLevel value then
        { s with symLvl := value.toNat, saved := s.symLvl :: s.saved }
      else
        s)
  | .leaveTmp =>
      match s.saved with
      | [] => none
      | symLvl :: rest => some { s with symLvl := symLvl, saved := rest }
  | .call query =>
      some (match (cachedResolve files s.symLvl query).run s.caches with
        | .ok value caches =>
            { s with caches := caches, calls := s.calls ++ [⟨s.symLvl, query, .ok value⟩] }
        | .error e caches =>
            { s with caches := caches, calls := s.calls ++ [⟨s.symLvl, query, .error e⟩] })

abbrev machine (files : Files) : Machine State Event := ⟨step files⟩

/-- Every call has given what it gives without caches at the level in force. -/
def Faithful (files : Files) (s : State) : Prop :=
  ∀ call ∈ s.calls, call.result = uncached files call.symLvl call.query

/-- The level at which the table of a debug file is read: the one at which it was stored, else
the present one -/
def Caches.levelOf (caches : Caches) (symLvl : Nat) (path : String) : Nat :=
  ((caches.collected.get? path).map Prod.fst).getD symLvl

/-- A call that has been answered before was first answered at a level that gives the answer of
the present one. For any other, the levels at which the tables of debug files were stored do. -/
def Current (files : Files) (s : State) : Event → Prop
  | .call query =>
      match s.caches.answers.get? query with
      | some found => uncached files found.1 query = uncached files s.symLvl query
      | none =>
          resolve (files.readers (s.caches.levelOf s.symLvl)) files s.symLvl query =
            uncached files s.symLvl query
  | _ => True

variable {files : Files} {symLvl : Nat} {caches caches' : Caches} {query : Query}

/-! ### What is remembered -/

/-- Tables are what the files give at the level at which they were stored. -/
structure TablesSound (files : Files) (caches : Caches) : Prop where
  parsed : ∀ path level info, caches.parsed.get? (path, level) = some info →
    files.parseElfFile path level = .ok info
  collected : ∀ path level symbols, caches.collected.get? path = some (level, symbols) →
    files.collectExternalInfo path level = .ok symbols

structure Sound (files : Files) (caches : Caches) : Prop extends TablesSound files caches where
  answers : ∀ query level value, caches.answers.get? query = some (level, value) →
    uncached files level query = .ok value

theorem sound_empty (files : Files) : Sound files .empty where
  parsed path level info found := by cases found
  collected path level symbols found := by cases found
  answers query level value found := by cases found

/-- What reading tables does to the caches: answers stay, and no table changes its level. -/
structure Extends (files : Files) (symLvl : Nat) (caches caches' : Caches) : Prop where
  levels : caches'.levelOf symLvl = caches.levelOf symLvl
  answers : caches'.answers = caches.answers
  sound : TablesSound files caches → TablesSound files caches'

namespace Extends

theorem refl (caches : Caches) : Extends files symLvl caches caches := ⟨rfl, rfl, id⟩

theorem trans {a b c : Caches} (first : Extends files symLvl a b)
    (second : Extends files symLvl b c) : Extends files symLvl a c where
  levels := second.levels.trans first.levels
  answers := second.answers.trans first.answers
  sound := second.sound ∘ first.sound

end Extends

/-- A table that is stored at the present level is stored at the level at which it would have
been read. -/
theorem levelOf_remember {path : String} (present : caches.levelOf symLvl path = symLvl)
    (symbols : Symbols) :
    (collectedSlot.remember caches path (symLvl, symbols)).levelOf symLvl =
      caches.levelOf symLvl := by
  funext other
  by_cases same : other = path
  · rw [same, present]
    simp [Caches.levelOf, collectedSlot, Dict.get?_set]
  · simp [Caches.levelOf, collectedSlot, Dict.get?_set, same]

theorem levelOf_of_some {path : String} {level : Nat} {symbols : Symbols}
    (stored : caches.collected.get? path = some (level, symbols)) :
    caches.levelOf symLvl path = level := by
  simp [Caches.levelOf, stored]

theorem levelOf_of_none {path : String} (missing : caches.collected.get? path = none) :
    caches.levelOf symLvl path = symLvl := by
  simp [Caches.levelOf, missing]

/-! ### Reading -/

section Reading

variable (sound : TablesSound files caches)
include sound

theorem yields_parseElfFile (extend : Extends files symLvl caches caches') (path : String)
    (level : Nat) :
    Yields (Extends files symLvl) ((cachedReaders files symLvl).parseElfFile path level)
      (files.parseElfFile path level) caches' := by
  apply yields_cached (.refl caches')
  · intro info found
    exact (extend.sound sound).parsed path level info found
  · exact fun _ => yields_ofExcept .refl _
  · intro info after _ read extended
    refine ⟨extended.levels, extended.answers,
      fun before => ⟨?_, (extended.sound before).collected⟩⟩
    intro path' level' info' found
    simp only [parsedSlot, Dict.get?_set] at found
    split at found
    · rename_i same
      cases same
      cases found
      exact read
    · exact (extended.sound before).parsed path' level' info' found

theorem yields_collectExternalInfo (extend : Extends files symLvl caches caches')
    (path : String) :
    Yields (Extends files symLvl) ((cachedReaders files symLvl).collectExternalInfo path)
      (files.collectExternalInfo path (caches.levelOf symLvl path)) caches' := by
  rw [← extend.levels]
  apply yields_stamped (.refl caches')
  · intro level symbols found
    rw [levelOf_of_some found]
    exact (extend.sound sound).collected path level symbols found
  · intro missing
    rw [levelOf_of_none missing]
    exact yields_ofExcept .refl _
  · intro symbols after missing read extended
    rw [levelOf_of_none missing] at read
    have present : after.levelOf symLvl path = symLvl := by
      rw [extended.levels, levelOf_of_none missing]
    refine ⟨(levelOf_remember present symbols).trans extended.levels, extended.answers, ?_⟩
    intro before
    refine ⟨(extended.sound before).parsed, ?_⟩
    intro path' level' symbols' found
    simp only [collectedSlot, Dict.get?_set] at found
    split at found
    · rename_i same
      cases same
      cases found
      exact read
    · exact (extended.sound before).collected path' level' symbols' found

variable {α : Type} (find : Symbols → Option α)

/-- A search in cached tables yields what it yields where each table is read at the level at
which it was stored. -/
theorem yields_searchExternal (paths : List String) (extend : Extends files symLvl caches caches') :
    Yields (Extends files symLvl) (searchExternal (cachedReaders files symLvl) find paths)
      (searchExternal (files.readers (caches.levelOf symLvl)) find paths) caches' := by
  induction paths generalizing caches' with
  | nil => exact yields_pure .refl none
  | cons path rest ih =>
      apply Yields.bind .trans (yields_collectExternalInfo sound extend path)
      intro symbols after _ extended
      cases find symbols with
      | some found => exact yields_pure .refl _
      | none => exact ih (extend.trans extended)

theorem yields_search (path : String) :
    Yields (Extends files symLvl) (search (cachedReaders files symLvl) find files symLvl path)
      (search (files.readers (caches.levelOf symLvl)) find files symLvl path) caches := by
  apply Yields.bind .trans (yields_parseElfFile sound (.refl caches) path symLvl)
  intro info after _ extended
  cases find info.symbols with
  | some found => exact yields_pure .refl _
  | none => exact yields_searchExternal sound find _ extended

theorem yields_resolve (query : Query) :
    Yields (Extends files symLvl) (resolve (cachedReaders files symLvl) files symLvl query)
      (resolve (files.readers (caches.levelOf symLvl)) files symLvl query) caches := by
  cases query with
  | symbol path symbol =>
      apply Yields.bind .trans
      · unfold resolveSymbol
        by_cases disabled : symLvl = 0
        · rw [if_pos disabled, if_pos disabled]
          exact yields_throw .refl _
        · rw [if_neg disabled, if_neg disabled]
          apply Yields.bind .trans (yields_search sound _ path)
          intro found after _ _
          cases found with
          | some address => exact yields_pure .refl _
          | none => exact yields_throw .refl _
      · exact fun address after _ _ => yields_pure .refl _
  | address path address =>
      apply Yields.bind .trans
      · unfold resolveAddress
        by_cases disabled : symLvl = 0
        · rw [if_pos disabled, if_pos disabled]
          exact yields_pure .refl _
        · rw [if_neg disabled, if_neg disabled]
          apply Yields.bind .trans (yields_search sound _ path)
          intro found after _ _
          cases found with
          | some hit => exact yields_pure .refl _
          | none => exact yields_throw .refl _
      · exact fun text after _ _ => yields_pure .refl _

end Reading

/-! ### Calls -/

/-- What a call gives from these caches: an answer that is remembered is the one of the level at
which it was stored. -/
def fromCaches (files : Files) (symLvl : Nat) (caches : Caches) (query : Query) :
    Except ElfError Value :=
  match caches.answers.get? query with
  | some found => uncached files found.1 query
  | none => resolve (files.readers (caches.levelOf symLvl)) files symLvl query

/-- All that is remembered was stored at this level. -/
structure Uniform (symLvl : Nat) (caches : Caches) : Prop where
  collected : ∀ path, caches.levelOf symLvl path = symLvl
  answers : ∀ query found, caches.answers.get? query = some found → found.1 = symLvl

theorem uniform_empty (symLvl : Nat) : Uniform symLvl .empty where
  collected path := rfl
  answers query found remembered := by cases remembered

/-- What a call keeps: the caches stay sound if it gives the answer of the present level, and
uniform if they were. -/
structure Keeps (files : Files) (symLvl : Nat) (query : Query) (before after : Caches) : Prop where
  sound : fromCaches files symLvl before query = uncached files symLvl query → Sound files after
  uniform : Uniform symLvl before → Uniform symLvl after

theorem yields_cachedResolve (sound : Sound files caches) :
    Yields (fun _ after => Keeps files symLvl query caches after)
      (cachedResolve files symLvl query) (fromCaches files symLvl caches query) caches := by
  apply yields_stamped ⟨fun _ => sound, id⟩
  · intro level value found
    unfold fromCaches
    rw [show caches.answers.get? query = some (level, value) from found]
    exact sound.answers query level value found
  · intro missing
    unfold fromCaches
    rw [show caches.answers.get? query = none from missing]
    apply (yields_resolve sound.toTablesSound query).mono
    intro after extended
    constructor
    · intro _
      refine ⟨extended.sound sound.toTablesSound, ?_⟩
      rw [extended.answers]
      exact sound.answers
    · intro uniform
      refine ⟨fun path => ?_, ?_⟩
      · rw [extended.levels]
        exact uniform.collected path
      · rw [extended.answers]
        exact uniform.answers
  · intro value after missing answered kept
    constructor
    · intro current
      have before := kept.sound current
      refine ⟨⟨before.parsed, before.collected⟩, ?_⟩
      intro query' level' value' found
      simp only [answersSlot, Dict.get?_set] at found
      split at found
      · rename_i same
        cases same
        cases found
        exact current.symm.trans answered
      · exact before.answers query' level' value' found
    · intro uniform
      have before := kept.uniform uniform
      refine ⟨before.collected, ?_⟩
      intro query' found remembered
      simp only [answersSlot, Dict.get?_set] at remembered
      split at remembered
      · cases remembered
        rfl
      · exact before.answers query' found remembered

/-- What a call does to the state -/
theorem step_call (files : Files) (s : State) (query : Query) (sound : Sound files s.caches) :
    ∃ after, step files s (.call query) = some { s with
        caches := after
        calls := s.calls ++
          [⟨s.symLvl, query, fromCaches files s.symLvl s.caches query⟩] } ∧
      Keeps files s.symLvl query s.caches after := by
  have yields : Yields _ (cachedResolve files s.symLvl query) _ s.caches :=
    yields_cachedResolve sound
  rcases ran : (cachedResolve files s.symLvl query).run s.caches with
    ⟨value, after⟩ | ⟨e, after⟩
  · obtain ⟨same, kept⟩ := yields.ok ran
    refine ⟨after, ?_, kept⟩
    unfold step
    simp only [ran, same]
  · obtain ⟨same, kept⟩ := yields.error ran
    refine ⟨after, ?_, kept⟩
    unfold step
    simp only [ran, same]

theorem current_call (s : State) : Current files s (.call query) ↔
    fromCaches files s.symLvl s.caches query = uncached files s.symLvl query := by
  simp only [Current, fromCaches]
  cases s.caches.answers.get? query with
  | some found => exact Iff.rfl
  | none => exact Iff.rfl

/-- Other events leave the caches and the record of calls alone. -/
theorem step_other {s next : State} {event : Event} (other : ∀ query, event ≠ .call query)
    (stepped : step files s event = some next) :
    next.caches = s.caches ∧ next.calls = s.calls := by
  cases event with
  | call query => exact absurd rfl (other query)
  | setSymLvl value =>
      cases stepped
      split
      · exact ⟨rfl, rfl⟩
      · exact ⟨rfl, rfl⟩
  | enterTmp value =>
      cases value with
      | none =>
          cases stepped
          exact ⟨rfl, rfl⟩
      | some value =>
          cases stepped
          split
          · exact ⟨rfl, rfl⟩
          · exact ⟨rfl, rfl⟩
  | leaveTmp =>
      simp only [step] at stepped
      cases saved : s.saved with
      | nil =>
          rw [saved] at stepped
          cases stepped
      | cons symLvl rest =>
          rw [saved] at stepped
          cases stepped
          exact ⟨rfl, rfl⟩

/-! ### Runs -/

theorem faithful_step {s next : State} {event : Event} (sound : Sound files s.caches)
    (faithful : Faithful files s) (stepped : step files s event = some next) :
    (Faithful files next ↔ Current files s event) ∧
      (Current files s event → Sound files next.caches) := by
  by_cases call : ∃ query, event = .call query
  · obtain ⟨query, rfl⟩ := call
    obtain ⟨after, same, kept⟩ := step_call files s query sound
    cases same.symm.trans stepped
    rw [current_call]
    refine ⟨?_, kept.sound⟩
    unfold Faithful
    simp only [List.forall_mem_append, List.forall_mem_singleton]
    exact and_iff_right faithful
  · obtain ⟨caches, calls⟩ := step_other (fun query same => call ⟨query, same⟩) stepped
    have always : Current files s event := by
      cases event with
      | call query => exact absurd ⟨query, rfl⟩ call
      | _ => trivial
    constructor
    · apply iff_of_true _ always
      unfold Faithful
      rw [calls]
      exact faithful
    · intro _
      rw [caches]
      exact sound

/-- Along a run from the start of the program, every call gives what it gives without caches if
and only if at every call what was stored before was stored at levels that give the answer of
the level in force. -/
theorem faithful_iff {events : List Event} {final : State}
    (reached : (machine files).run .initial events = some final) :
    (machine files).Throughout (Faithful files) .initial events ↔
      (machine files).Meets (Current files) .initial events := by
  apply Machine.throughout_iff (motive := fun s => Sound files s.caches ∧ Faithful files s)
  · intro s event next kept stepped
    exact (faithful_step kept.1 kept.2 stepped).1
  · intro s event next kept current stepped
    have after := faithful_step kept.1 kept.2 stepped
    exact ⟨after.2 current, after.1.mpr current⟩
  · refine ⟨sound_empty files, ?_⟩
    intro call member
    cases member
  · intro call member
    cases member
  · exact reached

theorem current_of_uniform {s : State} (uniform : Uniform s.symLvl s.caches) :
    Current files s (.call query) := by
  rw [current_call]
  unfold fromCaches
  cases remembered : s.caches.answers.get? query with
  | some found =>
      simp only
      rw [uniform.answers query found remembered]
  | none =>
      simp only
      rw [funext uniform.collected]
      rfl

/-- While the level is not touched, no call meets what another level has left behind. -/
theorem current_of_calls {events : List Event} {final : State}
    (calls : ∀ event ∈ events, ∃ query, event = .call query)
    (reached : (machine files).run .initial events = some final) :
    (machine files).Meets (Current files) .initial events := by
  have onlyCalls := (Machine.meets_forall (fun event => ∃ query, event = .call query) reached).mpr
    calls
  apply onlyCalls.imp (motive := fun s => Sound files s.caches ∧ Uniform s.symLvl s.caches)
  · rintro s event ⟨_, uniform⟩ ⟨query, rfl⟩
    exact current_of_uniform uniform
  · rintro s event next ⟨sound, uniform⟩ ⟨query, rfl⟩ stepped
    obtain ⟨after, same, kept⟩ := step_call files s query sound
    cases same.symm.trans stepped
    have current : Current files s (.call query) := current_of_uniform uniform
    rw [current_call] at current
    exact ⟨kept.sound current, kept.uniform uniform⟩
  · exact ⟨sound_empty files, uniform_empty 3⟩

/-! ### An old answer -/

/-- `helper` -/
def helperDie : Die where
  tag := .dwTagSubprogram
  name := some [104, 101, 108, 112, 101, 114]
  lowPc := 0x1139
  highPc := 0x10
  highPcIsOffset := true

def strippedElf : ElfFile where
  symbols := []
  dies := [helperDie]
  buildId := none
  debugFile := none

/-- A program whose symbols are in its DWARF information only -/
def dwarfFiles : Files where
  file := fun path => if path = "/bin/app" then some strippedElf else none
  demangle := fun _ => none
  localDebugPath := fun folder debugFile =>
    "/usr/lib/debug/.build-id/" ++ folder ++ "/" ++ debugFile
  debuginfod := fun _ => none
  isPie := fun _ => .ok true

def helperQuery : Query := .symbol "/bin/app" "helper"

def loweredLevel : List Event :=
  [.setSymLvl 2, .call helperQuery, .setSymLvl 1, .call helperQuery]

/-- At level 1 the symbol is not found; what was remembered at level 2 is returned. -/
theorem loweredLevel_not_faithful :
    ¬ (machine dwarfFiles).Throughout (Faithful dwarfFiles) .initial loweredLevel := by
  intro always
  have last : ((machine dwarfFiles).run .initial loweredLevel).map (·.calls.getLast?) =
      some (some ⟨1, helperQuery, .ok (.address 0x1139)⟩) := by rfl
  obtain ⟨final, reached, call⟩ := Option.map_eq_some_iff.mp last
  have here := always loweredLevel [] final (List.append_nil _).symm reached _
    (List.mem_of_getLast? call)
  have raised : uncached dwarfFiles 1 helperQuery = .error (.valueError
      "Symbol helper not found in /bin/app. Please specify a valid symbol.") := by rfl
  cases here.trans raised

theorem loweredLevel_faithful_iff :
    ∃ final, (machine dwarfFiles).run .initial loweredLevel = some final ∧
      ((machine dwarfFiles).Throughout (Faithful dwarfFiles) .initial loweredLevel ↔
        (machine dwarfFiles).Meets (Current dwarfFiles) .initial loweredLevel) := by
  have runs : ((machine dwarfFiles).run .initial loweredLevel).isSome = true := by rfl
  obtain ⟨final, reached⟩ := Option.isSome_iff_exists.mp runs
  exact ⟨final, reached, faithful_iff reached⟩

end Libdebug.Utils.SymbolLevels
