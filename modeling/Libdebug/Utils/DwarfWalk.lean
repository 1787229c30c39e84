import Libdebug.Foundation.Loops
import Libdebug.Utils.ElfUtils
import Mathlib.Data.List.Nodup

/-!
The walk over the compilation units: `help_symbol_names` in `debug_sym_cffi_source.c` and in
`debug_sym_cffi_source_legacy.c`.

The two differ in the function for the next header, of which the newer one is told the section by
`is_info`, in what is initialised, and in the second call of `dwarf_siblingof`: the older one asks
for the sibling of `child_die` and stores it in `sibling_die`, the newer one asks with `no_die` and
stores the answer in `cu_die`. Giving handles back has no effect on the walk and is left out.

libdwarf is a parameter. What is assumed of it is what it documents of headers, children and
siblings; the walks are followed on a library that counts the headers, and any other one that does
what is documented leads to the same.
-/

namespace Libdebug.Utils.DwarfWalk

open Libdebug.Foundation.Loop

/-! ### Files and handles -/

/-- A compilation unit, with the entries below its own; nothing is known of an entry whose tag
`dwarf_tag` cannot read. -/
structure CompilationUnit where
  children : List (Option Die)

/-- The units of `.debug_info` and those of `.debug_types` -/
structure DwarfFile where
  info : List CompilationUnit
  types : List CompilationUnit

def DwarfFile.units (file : DwarfFile) : Bool → List CompilationUnit
  | true => file.info
  | false => file.types

/-- An entry of a section, by its places: a unit's own, or a top-level child -/
inductive DieId where
  | unit (isInfo : Bool) (unit : Nat)
  | child (isInfo : Bool) (unit place : Nat)
  deriving DecidableEq

/-- A value of type `Dwarf_Die` -/
inductive Handle where
  | null
  /-- A pointer that libdwarf has not given out -/
  | wild
  | die (id : DieId)
  deriving DecidableEq

/-- What is found in an uninitialised handle; no entry has been given out then. -/
inductive Leftover where
  | null
  | wild
  deriving DecidableEq

def Leftover.handle : Leftover → Handle
  | .null => .null
  | .wild => .wild

def DwarfFile.childrenOf (file : DwarfFile) (isInfo : Bool) (unit : Nat) : List (Option Die) :=
  ((file.units isInfo)[unit]?.map CompilationUnit.children).getD []

/-- What `process_die` reads of an entry; a unit's own is no subprogram and no variable. -/
def DwarfFile.entry (file : DwarfFile) : DieId → Option Die
  | .unit _ _ => some ⟨.other, none, 0, 0, false⟩
  | .child isInfo unit place => ((file.childrenOf isInfo unit)[place]?).join

/-! ### libdwarf -/

/-- What is called of libdwarf, which keeps a state of an open file. The answer is `none` where the
code of the result is not `DW_DLV_OK`. -/
structure Libdwarf (D : Type) where
  /-- `dwarf_next_cu_header_d`, and `dwarf_next_cu_header` of `.debug_info` -/
  nextCuHeader : D → Bool → Option D
  /-- `dwarf_siblingof_b` with an entry or without, and `dwarf_siblingof` in `.debug_info` -/
  siblingOf : D → Bool → Option DieId → Option DieId
  /-- `dwarf_child` -/
  child : DieId → Option DieId

/-- What is documented of libdwarf for a file, of which so many headers have been read. -/
structure Libdwarf.Reads {D : Type} (lib : Libdwarf D) (file : DwarfFile)
    (headers : D → Bool → Nat) : Prop where
  /-- the headers of a section come one after the other -/
  header : ∀ dbg isInfo, headers dbg isInfo < (file.units isInfo).length →
    ∃ next, lib.nextCuHeader dbg isInfo = some next ∧
      headers next isInfo = headers dbg isInfo + 1
  noHeader : ∀ dbg isInfo, ¬ headers dbg isInfo < (file.units isInfo).length →
    lib.nextCuHeader dbg isInfo = none
  /-- without an entry, the one of the current unit is given -/
  unitEntry : ∀ dbg isInfo unit, headers dbg isInfo = unit + 1 →
    lib.siblingOf dbg isInfo none = some (.unit isInfo unit)
  sibling : ∀ dbg isInfo unit place, place + 1 < (file.childrenOf isInfo unit).length →
    lib.siblingOf dbg isInfo (some (.child isInfo unit place)) =
      some (.child isInfo unit (place + 1))
  noSibling : ∀ dbg isInfo unit place, ¬ place + 1 < (file.childrenOf isInfo unit).length →
    lib.siblingOf dbg isInfo (some (.child isInfo unit place)) = none
  firstChild : ∀ isInfo unit, file.childrenOf isInfo unit ≠ [] →
    lib.child (.unit isInfo unit) = some (.child isInfo unit 0)
  noChild : ∀ isInfo unit, file.childrenOf isInfo unit = [] →
    lib.child (.unit isInfo unit) = none

/-- A libdwarf that counts the headers; one section is read. -/
def counting (file : DwarfFile) : Libdwarf Nat where
  nextCuHeader headers isInfo :=
    if headers < (file.units isInfo).length then some (headers + 1) else none
  siblingOf headers isInfo
    | none => some (.unit isInfo (headers - 1))
    | some (.unit _ _) => none
    | some (.child inInfo unit place) =>
        if place + 1 < (file.childrenOf inInfo unit).length then
          some (.child inInfo unit (place + 1))
        else none
  child
    | .unit isInfo unit =>
        if file.childrenOf isInfo unit = [] then none else some (.child isInfo unit 0)
    | .child _ _ _ => none

theorem counting_reads (file : DwarfFile) :
    (counting file).Reads file fun headers _ => headers where
  header _ _ more := ⟨_, if_pos more, rfl⟩
  noHeader _ _ none := if_neg none
  unitEntry headers isInfo unit read := by
    obtain rfl : headers = unit + 1 := read
    rfl
  sibling _ _ _ _ further := if_pos further
  noSibling _ _ _ _ last := if_neg last
  firstChild _ _ children := if_neg children
  noChild _ _ childless := if_pos childless

inductive Lookup where
  | ok (id : DieId)
  | noEntry
  /-- The behaviour is undefined. -/
  | undefined

def Lookup.of : Option DieId → Lookup
  | some id => .ok id
  | none => .noEntry

/-- The handle that is passed may be one that libdwarf has not given out. -/
def Libdwarf.siblingOfHandle {D : Type} (lib : Libdwarf D) (dbg : D) (isInfo : Bool) :
    Handle → Lookup
  | .null => .of (lib.siblingOf dbg isInfo none)
  | .wild => .undefined
  | .die id => .of (lib.siblingOf dbg isInfo (some id))

/-! ### The two walks -/

/-- What `process_die` was called with, in order, and the list of symbols -/
structure Walk where
  visits : List DieId
  head : List SymbolInfo

structure Session (D : Type) where
  dbg : D
  walk : Walk

structure Locals where
  isInfo : Bool
  cuDie : Handle
  childDie : Handle
  noDie : Handle
  siblingDie : Handle

/-- Where the two versions of the inner loop differ: the handle that is asked for its sibling, and
the variable in which the answer is stored -/
structure Version where
  asked : Locals → Handle
  store : Locals → Handle → Locals

/-- `debug_sym_cffi_source_legacy.c` -/
def legacy : Version where
  asked locals := locals.childDie
  store locals die := { locals with siblingDie := die }

/-- `debug_sym_cffi_source.c` -/
def current : Version where
  asked locals := locals.noDie
  store locals die := { locals with cuDie := die }

inductive Outcome where
  | returned (code : Int) (walk : Walk)
  | undefined

/-- A test of the outer loop, or of the inner one -/
inductive Point where
  | units
  | children

structure Frame (D : Type) where
  point : Point
  locals : Locals
  session : Session D

section Walks

variable {D : Type} (lib : Libdwarf D) (files : Files) (file : DwarfFile)

/-- `process_die`; it fails if the tag cannot be read. -/
def processDie (walk : Walk) (id : DieId) : Walk :=
  ⟨walk.visits ++ [id],
    match file.entry id with
    | some die => files.processDie walk.head die
    | none => walk.head⟩

/-- From one test to the next -/
def step (version : Version) : Frame D → Frame D ⊕ Outcome
  | ⟨.units, locals, session⟩ =>
      match lib.nextCuHeader session.dbg locals.isInfo with
      | none => .inr (.returned 0 session.walk)
      | some dbg =>
          match lib.siblingOfHandle dbg locals.isInfo locals.noDie with
          | .undefined => .inr .undefined
          | .noEntry => .inr (.returned (-1) session.walk)
          | .ok unit =>
              match lib.child unit with
              | some child =>
                  .inl ⟨.children, { locals with cuDie := .die unit, childDie := .die child },
                    ⟨dbg, session.walk⟩⟩
              | none => .inl ⟨.units, { locals with cuDie := .die unit }, ⟨dbg, session.walk⟩⟩
  | ⟨.children, locals, session⟩ =>
      match locals.childDie with
      | .null => .inl ⟨.units, locals, session⟩
      | .wild => .inr .undefined
      | .die id =>
          let session := { session with walk := processDie files file session.walk id }
          if file.entry id = none then .inr (.returned (-1) session.walk)
          else
            match lib.siblingOfHandle session.dbg locals.isInfo (version.asked locals) with
            | .undefined => .inr .undefined
            | .noEntry => .inl ⟨.units, locals, session⟩
            | .ok next =>
                let locals := version.store locals (.die next)
                .inl ⟨.children, { locals with childDie := locals.siblingDie }, session⟩

/-- What the newer version finds in its variables -/
structure Stack where
  isInfo : Bool
  noDie : Leftover
  siblingDie : Leftover

/-- `help_symbol_names` ends with the outcome, in the older version. The variables other than
`no_die` are set before they are read. -/
def LegacyEnds (dbg : D) (head : List SymbolInfo) (outcome : Outcome) : Prop :=
  Ends (step lib files file legacy)
    ⟨.units, ⟨true, .null, .null, .null, .null⟩, ⟨dbg, ⟨[], head⟩⟩⟩ outcome

/-- `help_symbol_names` ends with the outcome, in the newer version; `cu_die` and `child_die` are
set before they are read. -/
def CurrentEnds (dbg : D) (stack : Stack) (head : List SymbolInfo) (outcome : Outcome) : Prop :=
  Ends (step lib files file current)
    ⟨.units, ⟨stack.isInfo, .null, .null, stack.noDie.handle, stack.siblingDie.handle⟩,
      ⟨dbg, ⟨[], head⟩⟩⟩ outcome

end Walks

/-! ### The entries to come to -/

/-- The top-level children of a unit from a place on -/
def childrenFrom (isInfo : Bool) (unit : Nat) : Nat → List (Option Die) → List DieId
  | _, [] => []
  | place, _ :: rest => .child isInfo unit place :: childrenFrom isInfo unit (place + 1) rest

/-- The top-level children of the units from one on -/
def entriesFrom (isInfo : Bool) : Nat → List CompilationUnit → List DieId
  | _, [] => []
  | unit, first :: rest =>
      childrenFrom isInfo unit 0 first.children ++ entriesFrom isInfo (unit + 1) rest

section Walks

variable (files : Files) (file : DwarfFile)

/-- `process_die` of one entry after the other, up to the first where it fails -/
def processAll : List DieId → Walk → Outcome
  | [], walk => .returned 0 walk
  | id :: rest, walk =>
      if file.entry id = none then .returned (-1) (processDie files file walk id)
      else processAll rest (processDie files file walk id)

/-- `process_die` is called on each top-level child of each unit once, in order, and that is all. -/
def walkOfAll (head : List SymbolInfo) : Outcome :=
  processAll files file (entriesFrom true 0 file.info) ⟨[], head⟩

end Walks

theorem mem_childrenFrom {isInfo : Bool} {unit place : Nat} {children : List (Option Die)}
    {id : DieId} (member : id ∈ childrenFrom isInfo unit place children) :
    ∃ later, place ≤ later ∧ id = .child isInfo unit later := by
  induction children generalizing place with
  | nil => cases member
  | cons _ rest ih =>
      obtain rfl | member := List.mem_cons.mp member
      · exact ⟨place, le_rfl, rfl⟩
      · obtain ⟨later, after, same⟩ := ih member
        exact ⟨later, Nat.le_of_succ_le after, same⟩

theorem mem_entriesFrom {isInfo : Bool} {unit : Nat} {units : List CompilationUnit} {id : DieId}
    (member : id ∈ entriesFrom isInfo unit units) :
    ∃ later place, unit ≤ later ∧ id = .child isInfo later place := by
  induction units generalizing unit with
  | nil => cases member
  | cons first rest ih =>
      obtain member | member := List.mem_append.mp member
      · obtain ⟨place, _, same⟩ := mem_childrenFrom member
        exact ⟨unit, place, le_rfl, same⟩
      · obtain ⟨later, place, after, same⟩ := ih member
        exact ⟨later, place, Nat.le_of_succ_le after, same⟩

theorem childrenFrom_nodup {isInfo : Bool} {unit place : Nat} {children : List (Option Die)} :
    (childrenFrom isInfo unit place children).Nodup := by
  induction children generalizing place with
  | nil => exact List.nodup_nil
  | cons _ rest ih =>
      refine List.nodup_cons.mpr ⟨fun member => ?_, ih⟩
      obtain ⟨later, after, same⟩ := mem_childrenFrom member
      cases same
      exact Nat.not_succ_le_self _ after

/-- No entry is among those to come to twice. -/
theorem entriesFrom_nodup {isInfo : Bool} {unit : Nat} {units : List CompilationUnit} :
    (entriesFrom isInfo unit units).Nodup := by
  induction units generalizing unit with
  | nil => exact List.nodup_nil
  | cons first rest ih =>
      refine List.nodup_append.mpr ⟨childrenFrom_nodup, ih, ?_⟩
      rintro _ here other there rfl
      obtain ⟨place, _, same⟩ := mem_childrenFrom here
      obtain ⟨later, otherPlace, after, otherSame⟩ := mem_entriesFrom there
      cases same.symm.trans otherSame
      exact Nat.not_succ_le_self _ after

theorem entriesFrom_eq_nil {isInfo : Bool} {unit : Nat} {units : List CompilationUnit} :
    entriesFrom isInfo unit units = [] ↔ ∀ cu ∈ units, cu.children = [] := by
  induction units generalizing unit with
  | nil => simp [entriesFrom]
  | cons first rest ih =>
      rw [entriesFrom, List.append_eq_nil_iff, ih, List.forall_mem_cons]
      refine and_congr_left' ?_
      cases first.children <;> simp [childrenFrom]

section Processing

variable {files : Files} {file : DwarfFile}

/-- Processing a list of entries returns, and it comes to the first of them first. -/
theorem processAll_returns (files : Files) (file : DwarfFile) (ids : List DieId) (walk : Walk) :
    ∃ code final more, processAll files file ids walk = .returned code final ∧
      final.visits = walk.visits ++ more ∧ more.head? = ids.head? := by
  induction ids generalizing walk with
  | nil => exact ⟨0, walk, [], rfl, (List.append_nil _).symm, rfl⟩
  | cons id rest ih =>
      rw [processAll]
      split_ifs
      · exact ⟨-1, _, [id], rfl, rfl, rfl⟩
      · obtain ⟨code, final, more, returned, visits, _⟩ := ih (processDie files file walk id)
        refine ⟨code, final, id :: more, returned, ?_, rfl⟩
        rw [visits]
        exact List.append_assoc _ _ _

/-- Where nothing has been processed, there were no entries. -/
theorem processAll_quiet {ids : List DieId} {walk : Walk} {code : Int} {head : List SymbolInfo}
    (quiet : processAll files file ids walk = .returned code ⟨walk.visits, head⟩) : ids = [] := by
  obtain ⟨_, _, more, returned, visits, first⟩ := processAll_returns files file ids walk
  cases quiet.symm.trans returned
  have nothing : more = [] := List.self_eq_append_right.mp visits
  rw [nothing] at first
  exact List.head?_eq_none_iff.mp first.symm

/-- Where all tags can be read, every entry is processed. -/
theorem processAll_readable {ids : List DieId} {walk : Walk}
    (readable : ∀ id ∈ ids, file.entry id ≠ none) :
    processAll files file ids walk =
      .returned 0 ⟨walk.visits ++ ids,
        (ids.filterMap file.entry).foldl files.processDie walk.head⟩ := by
  induction ids generalizing walk with
  | nil => simp [processAll]
  | cons id rest ih =>
      obtain ⟨here, others⟩ := List.forall_mem_cons.mp readable
      obtain ⟨die, entry⟩ := Option.ne_none_iff_exists'.mp here
      rw [processAll, if_neg here, ih others]
      simp [processDie, entry]

end Processing

/-! ### The steps of both walks -/

section Steps

variable {files : Files} {file : DwarfFile} {version : Version} {isInfo : Bool} {i j : Nat}
  {cu : CompilationUnit} {c : Option Die} {units : List CompilationUnit}
  {rest : List (Option Die)} {walk : Walk} {locals : Locals} {outcome : Outcome}

theorem childrenOf_of_drop (units_at : (file.units isInfo).drop i = cu :: units) :
    file.childrenOf isInfo i = cu.children := by
  have here : (file.units isInfo)[i]? = some cu := by
    rw [← List.head?_drop, units_at]
    rfl
  rw [DwarfFile.childrenOf, here]
  rfl

theorem entry_of_drop (children_at : (file.childrenOf isInfo i).drop j = c :: rest) :
    file.entry (.child isInfo i j) = c := by
  have here : (file.childrenOf isInfo i)[j]? = some c := by
    rw [← List.head?_drop, children_at]
    rfl
  rw [DwarfFile.entry, here]
  rfl

theorem lt_length_of_drop {α : Type} {xs ys : List α} {n : Nat} {y : α}
    (suffix : xs.drop n = y :: ys) : n < xs.length := by
  by_contra beyond
  rw [List.drop_eq_nil_of_le (Nat.le_of_not_lt beyond)] at suffix
  cases suffix

theorem drop_succ_of_drop {α : Type} {xs ys : List α} {n : Nat} {y : α}
    (suffix : xs.drop n = y :: ys) : xs.drop (n + 1) = ys := by
  rw [← List.tail_drop, suffix]
  rfl

theorem nextCuHeader_of_drop (units_at : (file.units isInfo).drop i = cu :: units) :
    (counting file).nextCuHeader i isInfo = some (i + 1) :=
  if_pos (lt_length_of_drop units_at)

theorem counting_unitEntry : (counting file).siblingOfHandle (i + 1) isInfo .null =
    .ok (.unit isInfo i) := rfl

theorem counting_sibling (further : j + 1 < (file.childrenOf isInfo i).length) (headers : Nat) :
    (counting file).siblingOfHandle headers isInfo (.die (.child isInfo i j)) =
      .ok (.child isInfo i (j + 1)) := by
  rw [Libdwarf.siblingOfHandle, (counting_reads file).sibling _ _ _ _ further, Lookup.of]

theorem counting_noSibling (last : ¬ j + 1 < (file.childrenOf isInfo i).length) (headers : Nat) :
    (counting file).siblingOfHandle headers isInfo (.die (.child isInfo i j)) = .noEntry := by
  rw [Libdwarf.siblingOfHandle, (counting_reads file).noSibling _ _ _ _ last, Lookup.of]

/-- There is no further unit. -/
theorem ends_units_nil (section_is : locals.isInfo = isInfo)
    (units_at : (file.units isInfo).drop i = []) :
    Ends (step (counting file) files file version) ⟨.units, locals, ⟨i, walk⟩⟩ outcome ↔
      outcome = .returned 0 walk := by
  refine ends_of_done ?_
  have none_left : (counting file).nextCuHeader i isInfo = none :=
    if_neg (Nat.not_lt.mpr (List.drop_eq_nil_iff.mp units_at))
  simp only [step, section_is, none_left]

/-- With a wild `no_die`, the first unit is the end of it. -/
theorem ends_units_wild (section_is : locals.isInfo = isInfo) (noDie : locals.noDie = .wild)
    (units_at : (file.units isInfo).drop i = cu :: units) :
    Ends (step (counting file) files file version) ⟨.units, locals, ⟨i, walk⟩⟩ outcome ↔
      outcome = .undefined := by
  refine ends_of_done ?_
  simp only [step, section_is, nextCuHeader_of_drop units_at, noDie]
  rfl

/-- A unit without children is passed over. -/
theorem ends_units_empty (section_is : locals.isInfo = isInfo) (noDie : locals.noDie = .null)
    (units_at : (file.units isInfo).drop i = cu :: units) (childless : cu.children = []) :
    Ends (step (counting file) files file version) ⟨.units, locals, ⟨i, walk⟩⟩ outcome ↔
      Ends (step (counting file) files file version)
        ⟨.units, { locals with cuDie := .die (.unit isInfo i) }, ⟨i + 1, walk⟩⟩ outcome := by
  have none : (counting file).child (.unit isInfo i) = none :=
    (counting_reads file).noChild _ _ ((childrenOf_of_drop units_at).trans childless)
  refine ends_of_next ?_
  simp only [step, section_is, nextCuHeader_of_drop units_at, noDie, counting_unitEntry, none]

/-- At another unit, the inner loop begins at its first child. -/
theorem ends_units_children (section_is : locals.isInfo = isInfo) (noDie : locals.noDie = .null)
    (units_at : (file.units isInfo).drop i = cu :: units) (children : cu.children = c :: rest) :
    Ends (step (counting file) files file version) ⟨.units, locals, ⟨i, walk⟩⟩ outcome ↔
      Ends (step (counting file) files file version)
        ⟨.children, { locals with
            cuDie := .die (.unit isInfo i), childDie := .die (.child isInfo i 0) },
          ⟨i + 1, walk⟩⟩ outcome := by
  have first : (counting file).child (.unit isInfo i) = some (.child isInfo i 0) := by
    apply (counting_reads file).firstChild
    rw [childrenOf_of_drop units_at, children]
    exact List.cons_ne_nil _ _
  refine ends_of_next ?_
  simp only [step, section_is, nextCuHeader_of_drop units_at, noDie, counting_unitEntry, first]

/-- A child whose tag cannot be read ends the walk. -/
theorem ends_children_unreadable {headers : Nat} {id : DieId} (child : locals.childDie = .die id)
    (unreadable : file.entry id = none) :
    Ends (step (counting file) files file version) ⟨.children, locals, ⟨headers, walk⟩⟩ outcome ↔
      outcome = .returned (-1) (processDie files file walk id) := by
  refine ends_of_done ?_
  rw [step, child]
  exact if_pos unreadable

end Steps

/-! ### The older version -/

section Legacy

variable {files : Files} {file : DwarfFile} {i j : Nat} {c : Option Die} {ids : List DieId}
  {rest : List (Option Die)} {walk : Walk} {locals : Locals} {outcome : Outcome}

/-- A child without a sibling is the last one of its unit. -/
theorem legacy_last (section_is : locals.isInfo = true)
    (child : locals.childDie = .die (.child true i j))
    (children_at : (file.childrenOf true i).drop j = [c]) (readable : c ≠ none) :
    Ends (step (counting file) files file legacy) ⟨.children, locals, ⟨i + 1, walk⟩⟩ outcome ↔
      Ends (step (counting file) files file legacy)
        ⟨.units, locals, ⟨i + 1, processDie files file walk (.child true i j)⟩⟩ outcome := by
  refine ends_of_next ?_
  have last : ¬ j + 1 < (file.childrenOf true i).length :=
    Nat.not_lt.mpr (List.drop_eq_nil_iff.mp (drop_succ_of_drop children_at))
  have entry : file.entry (.child true i j) ≠ none := by
    rw [entry_of_drop children_at]
    exact readable
  rw [step, child]
  simp only [if_neg entry, legacy, section_is, child, counting_noSibling last]

/-- Another one is followed by its sibling. -/
theorem legacy_next {sibling : Option Die} (section_is : locals.isInfo = true)
    (child : locals.childDie = .die (.child true i j))
    (children_at : (file.childrenOf true i).drop j = c :: sibling :: rest) (readable : c ≠ none) :
    Ends (step (counting file) files file legacy) ⟨.children, locals, ⟨i + 1, walk⟩⟩ outcome ↔
      Ends (step (counting file) files file legacy)
        ⟨.children, { locals with
            siblingDie := .die (.child true i (j + 1)), childDie := .die (.child true i (j + 1)) },
          ⟨i + 1, processDie files file walk (.child true i j)⟩⟩ outcome := by
  refine ends_of_next ?_
  have further : j + 1 < (file.childrenOf true i).length :=
    lt_length_of_drop (drop_succ_of_drop children_at)
  have entry : file.entry (.child true i j) ≠ none := by
    rw [entry_of_drop children_at]
    exact readable
  rw [step, child]
  simp only [if_neg entry, legacy, section_is, child, counting_sibling further]

/-- The inner loop processes the children from the current one on; the induction is on them. -/
theorem legacy_children (section_is : locals.isInfo = true) (noDie : locals.noDie = .null)
    (child : locals.childDie = .die (.child true i j))
    (children_at : (file.childrenOf true i).drop j = c :: rest)
    (later : ∀ (locals : Locals) (walk : Walk), locals.isInfo = true → locals.noDie = .null →
      (Ends (step (counting file) files file legacy) ⟨.units, locals, ⟨i + 1, walk⟩⟩ outcome ↔
        outcome = processAll files file ids walk)) :
    Ends (step (counting file) files file legacy) ⟨.children, locals, ⟨i + 1, walk⟩⟩ outcome ↔
      outcome = processAll files file (childrenFrom true i j (c :: rest) ++ ids) walk := by
  induction rest generalizing j c locals walk with
  | nil =>
      have entry := entry_of_drop children_at
      rw [childrenFrom, List.cons_append, processAll, entry]
      by_cases readable : c = none
      · rw [if_pos readable]
        exact ends_children_unreadable child (entry.trans readable)
      · rw [if_neg readable, legacy_last section_is child children_at readable]
        exact later locals _ section_is noDie
  | cons sibling rest ih =>
      have entry := entry_of_drop children_at
      rw [childrenFrom, List.cons_append, processAll, entry]
      by_cases readable : c = none
      · rw [if_pos readable]
        exact ends_children_unreadable child (entry.trans readable)
      · rw [if_neg readable, legacy_next section_is child children_at readable]
        exact ih section_is noDie rfl (drop_succ_of_drop children_at)

/-- The outer loop processes the children of the units from the next one on. -/
theorem legacy_units {units : List CompilationUnit} (section_is : locals.isInfo = true)
    (noDie : locals.noDie = .null) (units_at : file.info.drop i = units) :
    Ends (step (counting file) files file legacy) ⟨.units, locals, ⟨i, walk⟩⟩ outcome ↔
      outcome = processAll files file (entriesFrom true i units) walk := by
  induction units generalizing i locals walk with
  | nil => exact ends_units_nil section_is units_at
  | cons cu units ih =>
      have later : ∀ (locals : Locals) (walk : Walk), locals.isInfo = true →
          locals.noDie = .null →
          (Ends (step (counting file) files file legacy) ⟨.units, locals, ⟨i + 1, walk⟩⟩ outcome ↔
            outcome = processAll files file (entriesFrom true (i + 1) units) walk) :=
        fun _ _ section_is noDie => ih section_is noDie (drop_succ_of_drop units_at)
      cases children : cu.children with
      | nil =>
          rw [ends_units_empty section_is noDie units_at children, entriesFrom, children]
          exact later _ _ section_is noDie
      | cons c rest =>
          rw [ends_units_children section_is noDie units_at children, entriesFrom, children]
          have children_at : (file.childrenOf true i).drop 0 = c :: rest := by
            rw [childrenOf_of_drop units_at]
            exact children
          exact legacy_children section_is noDie rfl children_at later

/-- The older version ends, and it has processed every top-level child in order. -/
theorem legacy_ends (head : List SymbolInfo) :
    LegacyEnds (counting file) files file 0 head outcome ↔ outcome = walkOfAll files file head :=
  legacy_units rfl rfl rfl

end Legacy

/-! ### The newer version -/

/-- Up to the first unit whose first child cannot be read, every unit has one child at most, and
there is none unless `sibling_die` is `NULL`. -/
def OneChildEach (siblingDie : Leftover) : List CompilationUnit → Prop
  | [] => True
  | cu :: units =>
      match cu.children with
      | [] => OneChildEach siblingDie units
      | none :: _ => True
      | some _ :: rest => siblingDie = .null ∧ rest = [] ∧ OneChildEach siblingDie units

/-- `no_die` is `NULL` if it is read, and either `is_info` is set and each unit has one child at
most, or no unit of either section has a child. -/
def SameEntries (file : DwarfFile) (stack : Stack) : Prop :=
  (file.units stack.isInfo = [] ∨ stack.noDie = .null) ∧
    match stack.isInfo with
    | true => OneChildEach stack.siblingDie file.info
    | false => (∀ cu ∈ file.info, cu.children = []) ∧ ∀ cu ∈ file.types, cu.children = []

section Conditions

variable {siblingDie : Leftover} {cu : CompilationUnit} {units : List CompilationUnit}
  {rest : List (Option Die)}

theorem oneChildEach_empty (children : cu.children = []) :
    OneChildEach siblingDie (cu :: units) ↔ OneChildEach siblingDie units := by
  rw [OneChildEach, children]

theorem oneChildEach_unreadable (children : cu.children = none :: rest) :
    OneChildEach siblingDie (cu :: units) ↔ True := by
  rw [OneChildEach, children]

theorem oneChildEach_child {die : Die} (children : cu.children = some die :: rest) :
    OneChildEach siblingDie (cu :: units) ↔
      siblingDie = .null ∧ rest = [] ∧ OneChildEach siblingDie units := by
  rw [OneChildEach, children]

end Conditions

section Current

variable {files : Files} {file : DwarfFile} {isInfo : Bool} {siblingDie : Leftover} {i j : Nat}
  {c : Option Die} {cu : CompilationUnit} {units : List CompilationUnit}
  {rest : List (Option Die)} {walk : Walk} {locals : Locals} {outcome : Outcome}

/-- The variables that the walk does not change -/
structure Locals.Fits (locals : Locals) (isInfo : Bool) (siblingDie : Leftover) : Prop where
  isInfo : locals.isInfo = isInfo
  noDie : locals.noDie = .null
  siblingDie : locals.siblingDie = siblingDie.handle

/-- After a child, the entry of the unit is asked for, and the loop goes on with `sibling_die`. -/
theorem current_child (fits : locals.Fits isInfo siblingDie)
    (child : locals.childDie = .die (.child isInfo i j))
    (readable : file.entry (.child isInfo i j) ≠ none) :
    Ends (step (counting file) files file current) ⟨.children, locals, ⟨i + 1, walk⟩⟩ outcome ↔
      Ends (step (counting file) files file current)
        ⟨.children, { locals with
            cuDie := .die (.unit isInfo i), childDie := siblingDie.handle },
          ⟨i + 1, processDie files file walk (.child isInfo i j)⟩⟩ outcome := by
  refine ends_of_next ?_
  rw [step, child]
  simp only [if_neg readable, current, fits.isInfo, fits.noDie, counting_unitEntry,
    fits.siblingDie]

/-- With a wild `sibling_die`, a child is the end of it. -/
theorem current_child_wild (fits : locals.Fits isInfo .wild)
    (child : locals.childDie = .die (.child isInfo i j))
    (readable : file.entry (.child isInfo i j) ≠ none) :
    Ends (step (counting file) files file current) ⟨.children, locals, ⟨i + 1, walk⟩⟩ outcome ↔
      outcome = .undefined := by
  rw [current_child fits child readable]
  exact ends_of_done rfl

/-- With `NULL` in `sibling_die`, the next unit follows. -/
theorem current_child_null (fits : locals.Fits isInfo .null)
    (child : locals.childDie = .die (.child isInfo i j))
    (readable : file.entry (.child isInfo i j) ≠ none) :
    Ends (step (counting file) files file current) ⟨.children, locals, ⟨i + 1, walk⟩⟩ outcome ↔
      Ends (step (counting file) files file current)
        ⟨.units, { locals with cuDie := .die (.unit isInfo i), childDie := .null },
          ⟨i + 1, processDie files file walk (.child isInfo i j)⟩⟩ outcome := by
  rw [current_child fits child readable]
  exact ends_of_next rfl

section Rounds

variable (units_at : (file.units isInfo).drop i = cu :: units)

include units_at

/-- The inner loop begins. -/
theorem current_unit_children (files : Files) (walk : Walk)
    (fits : locals.Fits isInfo siblingDie) (children : cu.children = c :: rest) :
    ∃ next : Locals, next.Fits isInfo siblingDie ∧
      next.childDie = .die (.child isInfo i 0) ∧ file.entry (.child isInfo i 0) = c ∧
      ∀ outcome,
        Ends (step (counting file) files file current) ⟨.units, locals, ⟨i, walk⟩⟩ outcome ↔
          Ends (step (counting file) files file current) ⟨.children, next, ⟨i + 1, walk⟩⟩
            outcome := by
  have children_at : (file.childrenOf isInfo i).drop 0 = c :: rest := by
    rw [childrenOf_of_drop units_at]
    exact children
  exact ⟨{ locals with
      cuDie := .die (.unit isInfo i), childDie := .die (.child isInfo i 0) },
    ⟨fits.isInfo, fits.noDie, fits.siblingDie⟩, rfl, entry_of_drop children_at,
    fun _ => ends_units_children fits.isInfo fits.noDie units_at children⟩

theorem current_unit_empty (files : Files) (walk : Walk) (fits : locals.Fits isInfo siblingDie)
    (children : cu.children = []) :
    ∃ next : Locals, next.Fits isInfo siblingDie ∧
      ∀ outcome,
        Ends (step (counting file) files file current) ⟨.units, locals, ⟨i, walk⟩⟩ outcome ↔
          Ends (step (counting file) files file current) ⟨.units, next, ⟨i + 1, walk⟩⟩ outcome :=
  ⟨{ locals with cuDie := .die (.unit isInfo i) },
    ⟨fits.isInfo, fits.noDie, fits.siblingDie⟩,
    fun _ => ends_units_empty fits.isInfo fits.noDie units_at children⟩

theorem current_unit_unreadable (fits : locals.Fits isInfo siblingDie)
    (children : cu.children = none :: rest) :
    Ends (step (counting file) files file current) ⟨.units, locals, ⟨i, walk⟩⟩ outcome ↔
      outcome = .returned (-1) (processDie files file walk (.child isInfo i 0)) := by
  obtain ⟨next, _, child, entry, begins⟩ := current_unit_children units_at files walk
    fits children
  rw [begins]
  exact ends_children_unreadable child entry

theorem current_unit_wild {die : Die} (fits : locals.Fits isInfo .wild)
    (children : cu.children = some die :: rest) :
    Ends (step (counting file) files file current) ⟨.units, locals, ⟨i, walk⟩⟩ outcome ↔
      outcome = .undefined := by
  obtain ⟨next, nextFits, child, entry, begins⟩ := current_unit_children units_at files walk
    fits children
  rw [begins]
  exact current_child_wild nextFits child (entry ▸ Option.some_ne_none die)

theorem current_unit_null {die : Die} (files : Files) (walk : Walk)
    (fits : locals.Fits isInfo .null) (children : cu.children = some die :: rest) :
    ∃ next : Locals, next.Fits isInfo .null ∧
      ∀ outcome,
        Ends (step (counting file) files file current) ⟨.units, locals, ⟨i, walk⟩⟩ outcome ↔
          Ends (step (counting file) files file current)
            ⟨.units, next, ⟨i + 1, processDie files file walk (.child isInfo i 0)⟩⟩ outcome := by
  obtain ⟨next, nextFits, child, entry, begins⟩ := current_unit_children units_at files walk
    fits children
  refine ⟨{ next with cuDie := .die (.unit isInfo i), childDie := .null },
    ⟨nextFits.isInfo, nextFits.noDie, nextFits.siblingDie⟩, ?_⟩
  intro outcome
  rw [begins]
  exact current_child_null nextFits child (entry ▸ Option.some_ne_none die)

end Rounds

/-- What the newer version comes to lies in the units from the next one on; it comes to something
unless they have no children. -/
theorem current_visits {code : Int} {final : Walk} (fits : locals.Fits isInfo siblingDie)
    (units_at : (file.units isInfo).drop i = units)
    (ends : Ends (step (counting file) files file current) ⟨.units, locals, ⟨i, walk⟩⟩
      (.returned code final)) :
    ∃ more, final.visits = walk.visits ++ more ∧
      (∀ id ∈ more, ∃ later place, i ≤ later ∧ id = .child isInfo later place) ∧
      (more = [] → ∀ cu ∈ units, cu.children = []) := by
  induction units generalizing i locals walk with
  | nil =>
      rw [ends_units_nil fits.isInfo units_at] at ends
      cases ends
      exact ⟨[], (List.append_nil _).symm, fun _ member => (List.not_mem_nil member).elim,
        fun _ _ member => (List.not_mem_nil member).elim⟩
  | cons cu units ih =>
      have suffix := drop_succ_of_drop units_at
      cases children : cu.children with
      | nil =>
          obtain ⟨next, nextFits, round⟩ := current_unit_empty units_at files walk fits
            children
          obtain ⟨more, visits, within, empty⟩ := ih nextFits suffix ((round _).mp ends)
          refine ⟨more, visits, ?_, ?_⟩
          · intro id member
            obtain ⟨later, place, after, same⟩ := within id member
            exact ⟨later, place, Nat.le_of_succ_le after, same⟩
          · intro nothing
            exact List.forall_mem_cons.mpr ⟨children, empty nothing⟩
      | cons c rest =>
          cases c with
          | none =>
              cases (current_unit_unreadable units_at fits children).mp ends
              refine ⟨[.child isInfo i 0], rfl, ?_, ?_⟩
              · intro id member
                exact ⟨i, 0, le_rfl, List.mem_singleton.mp member⟩
              · intro nothing
                cases nothing
          | some die =>
              cases siblingDie with
              | wild => cases (current_unit_wild units_at fits children).mp ends
              | null =>
                  obtain ⟨next, nextFits, round⟩ := current_unit_null units_at files walk
                    fits children
                  obtain ⟨more, visits, within, _⟩ := ih nextFits suffix ((round _).mp ends)
                  refine ⟨.child isInfo i 0 :: more, ?_, ?_, ?_⟩
                  · rw [visits]
                    exact List.append_assoc _ _ _
                  · intro id member
                    obtain rfl | member := List.mem_cons.mp member
                    · exact ⟨i, 0, le_rfl, rfl⟩
                    · obtain ⟨later, place, after, same⟩ := within id member
                      exact ⟨later, place, Nat.le_of_succ_le after, same⟩
                  · intro nothing
                    cases nothing

/-- A second child of a unit is never come to. -/
theorem not_ends_second {ids : List DieId} (fits : locals.Fits isInfo siblingDie)
    (units_at : (file.units isInfo).drop (i + 1) = units) :
    ¬ Ends (step (counting file) files file current) ⟨.units, locals, ⟨i + 1, walk⟩⟩
      (processAll files file (.child isInfo i 1 :: ids) walk) := by
  intro ends
  obtain ⟨code, final, more, returned, visits, first⟩ :=
    processAll_returns files file (.child isInfo i 1 :: ids) walk
  rw [returned] at ends
  obtain ⟨others, otherVisits, within, _⟩ := current_visits fits units_at ends
  have same : more = others := List.append_cancel_left (visits.symm.trans otherVisits)
  rw [same, List.head?_cons] at first
  obtain ⟨later, place, after, second⟩ := within _ (List.mem_of_head? first)
  cases second
  exact Nat.not_succ_le_self _ after

/-- With `NULL` in `no_die`, the newer version comes to the right entries exactly where each unit
has one child at most. -/
theorem current_units (fits : locals.Fits true siblingDie) (units_at : file.info.drop i = units) :
    Ends (step (counting file) files file current) ⟨.units, locals, ⟨i, walk⟩⟩
        (processAll files file (entriesFrom true i units) walk) ↔
      OneChildEach siblingDie units := by
  induction units generalizing i locals walk with
  | nil =>
      rw [ends_units_nil fits.isInfo units_at]
      exact iff_of_true rfl trivial
  | cons cu units ih =>
      have in_info : (file.units true).drop i = cu :: units := units_at
      have suffix := drop_succ_of_drop units_at
      rw [entriesFrom]
      cases children : cu.children with
      | nil =>
          obtain ⟨next, nextFits, round⟩ := current_unit_empty in_info files walk fits
            children
          rw [round, oneChildEach_empty children]
          exact ih nextFits suffix
      | cons c rest =>
          have children_at : (file.childrenOf true i).drop 0 = c :: rest := by
            rw [childrenOf_of_drop units_at]
            exact children
          rw [childrenFrom, List.cons_append, processAll, entry_of_drop children_at]
          cases c with
          | none =>
              rw [if_pos rfl, current_unit_unreadable units_at fits children,
                oneChildEach_unreadable children]
              exact iff_of_true rfl trivial
          | some die =>
              rw [if_neg (Option.some_ne_none die), oneChildEach_child children]
              cases siblingDie with
              | wild =>
                  obtain ⟨code, final, _, returned, _⟩ := processAll_returns files file
                    (childrenFrom true i (0 + 1) rest ++ entriesFrom true (i + 1) units)
                    (processDie files file walk (.child true i 0))
                  rw [returned, current_unit_wild units_at fits children]
                  exact iff_of_false Outcome.noConfusion fun ⟨null, _⟩ => Leftover.noConfusion null
              | null =>
                  obtain ⟨next, nextFits, round⟩ := current_unit_null in_info files walk fits
                    children
                  rw [round]
                  cases rest with
                  | nil =>
                      rw [and_iff_right rfl, and_iff_right rfl]
                      exact ih nextFits suffix
                  | cons second rest =>
                      exact iff_of_false (not_ends_second nextFits suffix)
                        fun ⟨_, single, _⟩ => List.cons_ne_nil _ _ single

/-- Units without children are passed over. -/
theorem current_units_empty (fits : locals.Fits isInfo siblingDie)
    (units_at : (file.units isInfo).drop i = units) (childless : ∀ cu ∈ units, cu.children = []) :
    Ends (step (counting file) files file current) ⟨.units, locals, ⟨i, walk⟩⟩ outcome ↔
      outcome = .returned 0 walk := by
  induction units generalizing i locals with
  | nil => exact ends_units_nil fits.isInfo units_at
  | cons cu units ih =>
      obtain ⟨here, others⟩ := List.forall_mem_cons.mp childless
      obtain ⟨next, nextFits, round⟩ := current_unit_empty units_at files walk fits here
      rw [round]
      exact ih nextFits (drop_succ_of_drop units_at) others

/-- The other section gives the entries of `.debug_info` only where neither has any. -/
theorem current_types (fits : locals.Fits false siblingDie) (head : List SymbolInfo) :
    Ends (step (counting file) files file current) ⟨.units, locals, ⟨0, ⟨[], head⟩⟩⟩
        (walkOfAll files file head) ↔
      (∀ cu ∈ file.info, cu.children = []) ∧ ∀ cu ∈ file.types, cu.children = [] := by
  constructor
  · intro ends
    obtain ⟨code, final, more, returned, visits, first⟩ := processAll_returns files file
      (entriesFrom true 0 file.info) ⟨[], head⟩
    rw [walkOfAll, returned] at ends
    obtain ⟨others, otherVisits, within, empty⟩ := current_visits fits rfl ends
    have same : more = others := List.append_cancel_left (visits.symm.trans otherVisits)
    -- An entry that both come to would be of both sections.
    have nothing : more = [] := by
      cases more with
      | nil => rfl
      | cons id rest =>
          have inInfo := List.mem_of_head? first.symm
          obtain ⟨_, _, _, info⟩ := mem_entriesFrom inInfo
          obtain ⟨_, _, _, types⟩ := within id (same ▸ List.mem_cons_self)
          cases info.symm.trans types
    have noEntries : entriesFrom true 0 file.info = [] := by
      rw [nothing] at first
      exact List.head?_eq_none_iff.mp first.symm
    exact ⟨entriesFrom_eq_nil.mp noEntries, empty (same ▸ nothing)⟩
  · rintro ⟨info, types⟩
    have units_at : (file.units false).drop 0 = file.types := rfl
    rw [current_units_empty fits units_at types, walkOfAll, entriesFrom_eq_nil.mpr info]
    rfl

end Current

section Outcomes

variable (files : Files) (file : DwarfFile) (stack : Stack) (head : List SymbolInfo)

/-- Without units, no handle is read. -/
theorem current_nothing (nothing : file.units stack.isInfo = []) :
    CurrentEnds (counting file) files file 0 stack head (walkOfAll files file head) ↔
      SameEntries file stack := by
  have ended : CurrentEnds (counting file) files file 0 stack head (walkOfAll files file head) ↔
      walkOfAll files file head = .returned 0 ⟨[], head⟩ := ends_units_nil rfl nothing
  rw [ended, SameEntries, and_iff_right (Or.inl nothing)]
  cases isInfo : stack.isInfo with
  | true =>
      rw [isInfo] at nothing
      have noUnits : file.info = [] := nothing
      simp only [walkOfAll, noUnits]
      exact iff_of_true rfl trivial
  | false =>
      rw [isInfo] at nothing
      have noUnits : file.types = [] := nothing
      constructor
      · intro quiet
        refine ⟨entriesFrom_eq_nil.mp (processAll_quiet quiet), ?_⟩
        rw [noUnits]
        exact fun _ member => (List.not_mem_nil member).elim
      · rintro ⟨childless, _⟩
        rw [walkOfAll, entriesFrom_eq_nil.mpr childless]
        rfl

/-- Where there are units, `no_die` has to be `NULL`. -/
theorem current_something {cu : CompilationUnit} {units : List CompilationUnit}
    (units_at : file.units stack.isInfo = cu :: units) :
    CurrentEnds (counting file) files file 0 stack head (walkOfAll files file head) ↔
      SameEntries file stack := by
  cases noDie : stack.noDie with
  | wild =>
      have ended :
          CurrentEnds (counting file) files file 0 stack head (walkOfAll files file head) ↔
          walkOfAll files file head = .undefined :=
        ends_units_wild rfl (congrArg Leftover.handle noDie) units_at
      obtain ⟨_, _, _, returned, _⟩ :=
        processAll_returns files file (entriesFrom true 0 file.info) ⟨[], head⟩
      rw [ended, walkOfAll, returned]
      refine iff_of_false Outcome.noConfusion ?_
      rintro ⟨unread | null, _⟩
      · rw [units_at] at unread
        cases unread
      · rw [noDie] at null
        cases null
  | null =>
      rw [SameEntries, and_iff_right (Or.inr noDie)]
      cases isInfo : stack.isInfo with
      | true => exact current_units ⟨isInfo, congrArg Leftover.handle noDie, rfl⟩ rfl
      | false => exact current_types ⟨isInfo, congrArg Leftover.handle noDie, rfl⟩ head

end Outcomes

/-! ### Any library -/

/-- A handle that libdwarf answers for, in a section: of an entry, only the children are asked
for their siblings. -/
def Handle.InSection (isInfo : Bool) : Handle → Prop
  | .null => True
  | .wild => True
  | .die id => ∃ unit place, id = .child isInfo unit place

structure Locals.InSection (locals : Locals) : Prop where
  noDie : ∀ id, locals.noDie ≠ .die id
  childDie : locals.childDie.InSection locals.isInfo
  siblingDie : locals.siblingDie.InSection locals.isInfo

section Libraries

variable {D : Type} {lib : Libdwarf D} {files : Files} {file : DwarfFile}
  {headers : D → Bool → Nat} {dbg : D} {isInfo : Bool} {locals : Locals} {version : Version}
  {frame next : Frame D} {outcome : Outcome}

/-- The inner loop is begun after a header has been read. -/
structure Frame.Under (headers : D → Bool → Nat) (frame : Frame D) : Prop where
  inSection : frame.locals.InSection
  begun : frame.point = .children → headers frame.session.dbg frame.locals.isInfo ≠ 0

theorem Frame.under_units {session : Session D} (inSection : locals.InSection) :
    Frame.Under headers ⟨.units, locals, session⟩ :=
  ⟨inSection, fun children => Point.noConfusion children⟩

/-- The same on the library that counts -/
def Frame.counted (headers : D → Bool → Nat) (frame : Frame D) : Frame Nat :=
  ⟨frame.point, frame.locals,
    ⟨headers frame.session.dbg frame.locals.isInfo, frame.session.walk⟩⟩

/-- What the walks rely on of a version: entries are asked for and stored by their sections. -/
structure Version.Keeps (version : Version) (file : DwarfFile) : Prop where
  isInfo : ∀ locals die, (version.store locals die).isInfo = locals.isInfo
  asked : ∀ locals, locals.InSection → (version.asked locals).InSection locals.isInfo
  stored : ∀ locals headers id, locals.InSection → locals.childDie ≠ .null →
    (counting file).siblingOfHandle headers locals.isInfo (version.asked locals) = .ok id →
    (version.store locals (.die id)).InSection

theorem Locals.InSection.noDie_asked (inSection : locals.InSection) :
    locals.noDie.InSection locals.isInfo := by
  cases noDie : locals.noDie with
  | null => trivial
  | wild => trivial
  | die id => exact (inSection.noDie id noDie).elim

theorem legacy_keeps : legacy.Keeps file where
  isInfo _ _ := rfl
  asked _ inSection := inSection.childDie
  stored locals headers id inSection asking found := by
    refine ⟨inSection.noDie, inSection.childDie, ?_⟩
    have child := inSection.childDie
    change (counting file).siblingOfHandle headers locals.isInfo locals.childDie = .ok id at found
    cases childDie : locals.childDie with
    | null => exact (asking childDie).elim
    | wild =>
        rw [childDie] at found
        cases found
    | die current =>
        rw [childDie] at child found
        obtain ⟨unit, place, rfl⟩ := child
        by_cases further : place + 1 < (file.childrenOf locals.isInfo unit).length
        · rw [counting_sibling further] at found
          cases found
          exact ⟨unit, place + 1, rfl⟩
        · rw [counting_noSibling further] at found
          cases found

theorem current_keeps : current.Keeps file where
  isInfo _ _ := rfl
  asked _ inSection := inSection.noDie_asked
  stored _ _ _ inSection _ _ := ⟨inSection.noDie, inSection.childDie, inSection.siblingDie⟩

section Reads

variable (reads : lib.Reads file headers)

include reads

theorem nextCuHeader_counted (dbg : D) (isInfo : Bool) :
    (counting file).nextCuHeader (headers dbg isInfo) isInfo =
      (lib.nextCuHeader dbg isInfo).map (headers · isInfo) := by
  by_cases more : headers dbg isInfo < (file.units isInfo).length
  · obtain ⟨next, header, read⟩ := reads.header dbg isInfo more
    rw [header, Option.map_some, read]
    exact if_pos more
  · rw [reads.noHeader dbg isInfo more]
    exact if_neg more

theorem headers_next {next : D} (header : lib.nextCuHeader dbg isInfo = some next) :
    headers next isInfo = headers dbg isInfo + 1 := by
  by_cases more : headers dbg isInfo < (file.units isInfo).length
  · obtain ⟨opened, found, read⟩ := reads.header dbg isInfo more
    cases header.symm.trans found
    exact read
  · cases header.symm.trans (reads.noHeader dbg isInfo more)

theorem child_counted (isInfo : Bool) (unit : Nat) :
    (counting file).child (.unit isInfo unit) = lib.child (.unit isInfo unit) := by
  by_cases childless : file.childrenOf isInfo unit = []
  · rw [reads.noChild _ _ childless, (counting_reads file).noChild _ _ childless]
  · rw [reads.firstChild _ _ childless, (counting_reads file).firstChild _ _ childless]

theorem child_inSection {unit : Nat} {child : DieId}
    (first : lib.child (.unit isInfo unit) = some child) :
    ∃ unit place, child = .child isInfo unit place := by
  by_cases childless : file.childrenOf isInfo unit = []
  · cases first.symm.trans (reads.noChild _ _ childless)
  · cases first.symm.trans (reads.firstChild _ _ childless)
    exact ⟨unit, 0, rfl⟩

theorem siblingOfHandle_counted {handle : Handle} (asked : handle.InSection isInfo)
    (begun : headers dbg isInfo ≠ 0) :
    (counting file).siblingOfHandle (headers dbg isInfo) isInfo handle =
      lib.siblingOfHandle dbg isInfo handle := by
  cases handle with
  | null =>
      obtain ⟨unit, read⟩ := Nat.exists_eq_succ_of_ne_zero begun
      rw [read, counting_unitEntry, Libdwarf.siblingOfHandle, reads.unitEntry _ _ _ read,
        Lookup.of]
  | wild => rfl
  | die id =>
      obtain ⟨unit, place, rfl⟩ := asked
      by_cases further : place + 1 < (file.childrenOf isInfo unit).length
      · rw [counting_sibling further, Libdwarf.siblingOfHandle, reads.sibling _ _ _ _ further,
          Lookup.of]
      · rw [counting_noSibling further, Libdwarf.siblingOfHandle, reads.noSibling _ _ _ _ further,
          Lookup.of]

/-- The entry that begins a unit is found by the header that has been read. -/
theorem unitEntry_counted {next : D} {unit : DieId} (inSection : locals.InSection)
    (read : headers next locals.isInfo = headers dbg locals.isInfo + 1)
    (found : lib.siblingOfHandle next locals.isInfo locals.noDie = .ok unit) :
    unit = .unit locals.isInfo (headers dbg locals.isInfo) := by
  cases noDie : locals.noDie with
  | null =>
      rw [noDie, Libdwarf.siblingOfHandle, reads.unitEntry _ _ _ read] at found
      cases found
      rfl
  | wild =>
      rw [noDie] at found
      cases found
  | die id => exact (inSection.noDie id noDie).elim

/-- One step of the library that counts for each of the other's. -/
theorem step_counted (keeps : version.Keeps file) (under : frame.Under headers) :
    step (counting file) files file version (frame.counted headers) =
      (step lib files file version frame).map (Frame.counted headers) id := by
  obtain ⟨point, locals, dbg, walk⟩ := frame
  cases point with
  | units =>
      simp only [Frame.counted, step, nextCuHeader_counted reads]
      cases header : lib.nextCuHeader dbg locals.isInfo with
      | none => rfl
      | some next =>
          have read := headers_next reads header
          have begun : headers next locals.isInfo ≠ 0 := by
            rw [read]
            exact Nat.succ_ne_zero _
          have asked := under.inSection.noDie_asked
          simp only [Option.map_some, siblingOfHandle_counted reads asked begun]
          cases found : lib.siblingOfHandle next locals.isInfo locals.noDie with
          | undefined => rfl
          | noEntry => rfl
          | ok unit =>
              obtain rfl := unitEntry_counted reads under.inSection read found
              simp only [child_counted reads]
              cases lib.child (.unit locals.isInfo (headers dbg locals.isInfo)) <;> rfl
  | children =>
      have asked := keeps.asked locals under.inSection
      have begun := under.begun rfl
      simp only [Frame.counted, step, siblingOfHandle_counted reads asked begun]
      cases locals.childDie with
      | null => rfl
      | wild => rfl
      | die id =>
          simp only
          split_ifs
          · rfl
          · cases lib.siblingOfHandle dbg locals.isInfo (version.asked locals) with
            | undefined => rfl
            | noEntry => rfl
            | ok sibling =>
                simp only [Sum.map_inl, Frame.counted, keeps.isInfo]

/-- The handles stay in the section. -/
theorem step_under (keeps : version.Keeps file) (under : frame.Under headers)
    (stepped : step lib files file version frame = .inl next) : next.Under headers := by
  obtain ⟨point, locals, dbg, walk⟩ := frame
  have inSection := under.inSection
  cases point with
  | units =>
      simp only [step] at stepped
      split at stepped
      · cases stepped
      · rename_i opened header
        have read := headers_next reads header
        split at stepped
        · cases stepped
        · cases stepped
        · rename_i unit found
          obtain rfl := unitEntry_counted reads inSection read found
          split at stepped
          · rename_i child first
            cases stepped
            refine ⟨⟨inSection.noDie, child_inSection reads first, inSection.siblingDie⟩, ?_⟩
            intro _ unread
            exact Nat.succ_ne_zero _ (read.symm.trans unread)
          · cases stepped
            exact Frame.under_units ⟨inSection.noDie, inSection.childDie, inSection.siblingDie⟩
  | children =>
      have asked := keeps.asked locals inSection
      have begun := under.begun rfl
      simp only [step] at stepped
      split at stepped
      · cases stepped
        exact Frame.under_units inSection
      · cases stepped
      · rename_i id child
        split_ifs at stepped
        rw [← siblingOfHandle_counted reads asked begun] at stepped
        split at stepped
        · cases stepped
        · cases stepped
          exact Frame.under_units inSection
        · rename_i sibling found
          cases stepped
          have asking : locals.childDie ≠ .null := by
            rw [child]
            exact Handle.noConfusion
          have stored := keeps.stored locals _ sibling inSection asking found
          refine ⟨⟨stored.noDie, stored.siblingDie, stored.siblingDie⟩, fun _ => ?_⟩
          rw [keeps.isInfo]
          exact begun

/-- A walk with the library ends as the same with the one that counts. -/
theorem ends_counted (keeps : version.Keeps file) (under : frame.Under headers) :
    Ends (step (counting file) files file version) (frame.counted headers) outcome ↔
      Ends (step lib files file version) frame outcome :=
  ends_of_follows (Frame.counted headers) (fun _ => step_counted reads keeps)
    (fun _ _ => step_under reads keeps) under

end Reads

end Libraries

/-! ### The two versions -/

section Versions

variable {D : Type} {lib : Libdwarf D} {file : DwarfFile} {headers : D → Bool → Nat}
  (files : Files) (dbg : D) (stack : Stack) (head : List SymbolInfo)
  (reads : lib.Reads file headers) (opened : ∀ isInfo, headers dbg isInfo = 0)

include reads opened

theorem legacyEnds_counted {outcome : Outcome} :
    LegacyEnds lib files file dbg head outcome ↔
      LegacyEnds (counting file) files file 0 head outcome := by
  rw [LegacyEnds, LegacyEnds, ← ends_counted reads legacy_keeps, Frame.counted, opened]
  exact Frame.under_units ⟨fun _ => Handle.noConfusion, trivial, trivial⟩

theorem currentEnds_counted {outcome : Outcome} :
    CurrentEnds lib files file dbg stack head outcome ↔
      CurrentEnds (counting file) files file 0 stack head outcome := by
  rw [CurrentEnds, CurrentEnds, ← ends_counted reads current_keeps, Frame.counted, opened]
  refine Frame.under_units ⟨?_, trivial, ?_⟩
  · cases stack.noDie <;> exact fun _ => Handle.noConfusion
  · cases stack.siblingDie <;> trivial

/-- On a file whose tags can all be read, the older version collects what `retrieveFromDwarf` does
for the entries that it comes to. -/
theorem legacy_retrieves {elf : ElfFile}
    (readable : ∀ id ∈ entriesFrom true 0 file.info, file.entry id ≠ none)
    (dies : elf.dies = (entriesFrom true 0 file.info).filterMap file.entry) :
    LegacyEnds lib files file dbg head
      (.returned 0 ⟨entriesFrom true 0 file.info, files.retrieveFromDwarf head elf⟩) := by
  rw [legacyEnds_counted files dbg head reads opened, legacy_ends, walkOfAll,
    processAll_readable readable, Files.retrieveFromDwarf, dies]
  rfl

/-- On a file that has just been opened, and with any libdwarf that does what is documented: the
older version calls `process_die` on each top-level child of each unit and ends; the newer one does
if and only if it finds the right values in its variables and no unit has two children. -/
theorem walks_agree_iff :
    LegacyEnds lib files file dbg head (walkOfAll files file head) ∧
      (CurrentEnds lib files file dbg stack head (walkOfAll files file head) ↔
        SameEntries file stack) := by
  rw [legacyEnds_counted files dbg head reads opened,
    currentEnds_counted files dbg stack head reads opened]
  constructor
  · exact (legacy_ends head).mpr rfl
  · cases units_at : file.units stack.isInfo with
    | nil => exact current_nothing files file stack head units_at
    | cons cu units => exact current_something files file stack head units_at

end Versions

/-- A unit with two functions; `is_info` is set, and the handles are `NULL`. -/
def twoFunctions : DwarfFile :=
  ⟨[⟨[some ⟨.dwTagSubprogram, some [102], 4096, 16, true⟩,
      some ⟨.dwTagSubprogram, some [103], 4112, 16, true⟩]⟩], []⟩

def noFiles : Files :=
  ⟨fun _ => none, fun _ => none, fun _ _ => "", fun _ => none, fun _ => .ok true⟩

/-- The older version comes to both functions, the newer one does not. -/
theorem twoFunctions_apart :
    LegacyEnds (counting twoFunctions) noFiles twoFunctions 0 []
        (walkOfAll noFiles twoFunctions []) ∧
      ¬ CurrentEnds (counting twoFunctions) noFiles twoFunctions 0 ⟨true, .null, .null⟩ []
        (walkOfAll noFiles twoFunctions []) := by
  obtain ⟨older, newer⟩ := walks_agree_iff noFiles 0 ⟨true, .null, .null⟩ []
    (counting_reads twoFunctions) fun _ => rfl
  refine ⟨older, fun ends => ?_⟩
  obtain ⟨_, _, single, _⟩ := newer.mp ends
  cases single

theorem second_function_missed :
    ¬ ∀ (D : Type) (lib : Libdwarf D) (headers : D → Bool → Nat) (dbg : D) (files : Files)
      (file : DwarfFile) (stack : Stack) (head : List SymbolInfo),
      lib.Reads file headers → (∀ isInfo, headers dbg isInfo = 0) →
        CurrentEnds lib files file dbg stack head (walkOfAll files file head) := by
  intro ends
  have reads := counting_reads twoFunctions
  have same := (current_something noFiles twoFunctions ⟨true, .null, .null⟩ [] rfl).mp
    (ends _ _ _ 0 noFiles twoFunctions ⟨true, .null, .null⟩ [] reads fun _ => rfl)
  obtain ⟨_, _, single, _⟩ := same
  cases single

end Libdebug.Utils.DwarfWalk
