import Libdebug.Data.MemoryKeys

/-!
Which maps a backing file stands for. A file is named by any part of its path, and the main
binary by its whole path: the maps of another file are in the way if that path is a part of
theirs. What is resolved lies in a map, and stands for itself from then on.
-/

namespace Libdebug.Data

variable {process : Process} {backingFile : String} {address result : Int} {found : FileMaps}

/-- A list names one value at most if and only if all its elements are equal. -/
theorem length_eraseDups_le_one {α : Type} [DecidableEq α] {names : List α} :
    names.eraseDups.length ≤ 1 ↔ ∀ a ∈ names, ∀ b ∈ names, a = b := by
  cases names with
  | nil => simp
  | cons first rest =>
      rw [List.eraseDups_cons, List.length_cons, ← Nat.lt_iff_add_one_le, Nat.lt_one_iff,
        List.length_eq_zero_iff, List.eq_nil_iff_forall_not_mem]
      simp only [List.mem_eraseDups, List.mem_filter, not_and]
      constructor
      · intro none
        have same : ∀ a ∈ first :: rest, a = first := by
          intro a member
          rcases List.mem_cons.mp member with rfl | later
          · rfl
          · simpa using none a later
        intro a here b there
        exact (same a here).trans (same b there).symm
      · intro same b later
        simpa using same b (.tail _ later) first (.head _)

namespace Process

/-- The maps in whose backing file the name occurs -/
def mapsNaming (process : Process) (backingFile : String) : List MemoryMap :=
  process.maps.filter fun vmap => IsIn backingFile vmap.backingFile

/-- The maps are those in which the name occurs, and they have one file. -/
theorem filterMaps_eq_ok_iff : process.filterMaps backingFile = .ok found ↔
    found.val = process.mapsNaming backingFile ∧
      ∀ a ∈ process.mapsNaming backingFile, ∀ b ∈ process.mapsNaming backingFile,
        a.backingFile = b.backingFile := by
  have single : ¬ (uniqueFiles (process.mapsNaming backingFile)).length > 1 ↔
      ∀ a ∈ process.mapsNaming backingFile, ∀ b ∈ process.mapsNaming backingFile,
        a.backingFile = b.backingFile := by
    rw [not_lt, uniqueFiles, length_eraseDups_le_one]
    simp only [List.forall_mem_map]
  rw [← single]
  change (if (uniqueFiles (process.mapsNaming backingFile)).length > 1 then _
    else if found : process.mapsNaming backingFile = [] then _ else _) = _ ↔ _
  by_cases several : (uniqueFiles (process.mapsNaming backingFile)).length > 1
  · rw [if_pos several]
    apply iff_of_false
    · intro ok
      cases ok
    · rintro ⟨_, one⟩
      exact one several
  · rw [if_neg several, and_iff_left several]
    by_cases empty : process.mapsNaming backingFile = []
    · rw [dif_pos empty]
      apply iff_of_false
      · intro ok
        cases ok
      · intro same
        exact found.property (same.trans empty)
    · rw [dif_neg empty]
      constructor
      · intro ok
        cases ok
        rfl
      · intro same
        exact congrArg Except.ok (Subtype.ext same.symm)

/-- The maps of one file -/
def mapsOf (process : Process) (file : String) : List MemoryMap :=
  process.maps.filter fun vmap => vmap.backingFile = file

/-! ### The main binary -/

/-- The path of the main binary is no part of the path of another mapped file. -/
def OwnsPath (process : Process) : Prop :=
  ∀ vmap ∈ process.maps, IsIn process.fullPath vmap.backingFile →
    vmap.backingFile = process.fullPath

/-- The maps of the main binary are found by its path, if no other file is in the way. -/
theorem filterMaps_fullPath_iff (mapped : ∃ vmap ∈ process.maps,
      vmap.backingFile = process.fullPath) :
    (∃ found, process.filterMaps process.fullPath = .ok found) ↔ process.OwnsPath := by
  obtain ⟨main, member, named⟩ := mapped
  have self : IsIn process.fullPath process.fullPath := List.infix_refl _
  have there : main ∈ process.mapsNaming process.fullPath := by
    apply List.mem_filter.mpr
    exact ⟨member, decide_eq_true (named ▸ self)⟩
  constructor
  · rintro ⟨found, ok⟩ vmap member occurs
    have both := (filterMaps_eq_ok_iff.mp ok).2
    have also : vmap ∈ process.mapsNaming process.fullPath :=
      List.mem_filter.mpr ⟨member, decide_eq_true occurs⟩
    exact (both vmap also main there).trans named
  · intro owns
    refine ⟨⟨process.mapsNaming process.fullPath, List.ne_nil_of_mem there⟩, ?_⟩
    rw [filterMaps_eq_ok_iff]
    refine ⟨rfl, ?_⟩
    have all : ∀ a ∈ process.mapsNaming process.fullPath, a.backingFile = process.fullPath := by
      intro a here
      obtain ⟨inside, occurs⟩ := List.mem_filter.mp here
      exact owns a inside (of_decide_eq_true occurs)
    intro a here b beside
    exact (all a here).trans (all b beside).symm

theorem mapsNaming_eq_mapsOf (owns : process.OwnsPath) :
    process.mapsNaming process.fullPath = process.mapsOf process.fullPath := by
  apply List.filter_congr
  intro vmap member
  apply decide_eq_decide.mpr
  constructor
  · exact owns vmap member
  · intro named
    rw [named]

/-- Under this name addresses and symbols are resolved in the maps of the main binary; in hybrid
mode an address that lies in a map stands for itself. -/
def Addresses (process : Process) (backingFile : String) : Prop :=
  ∃ found : FileMaps, found.val = process.mapsOf process.fullPath ∧
    (∀ address skip,
      (backingFile = "hybrid" → checkAbsoluteAddress address process.maps = false) →
      process.resolveAddress address backingFile skip =
        normalizeAndValidateAddress address found) ∧
    ∀ symbol, process.resolveSymbol symbol backingFile =
      process.resolveSymbolInMaps symbol found.val

/-- What is not taken as it is, is looked for in the maps that are selected. -/
theorem resolveAddress_relativeTo {skip : Bool} (relative : backingFile ≠ "absolute")
    (absent : backingFile = "hybrid" → checkAbsoluteAddress address process.maps = false) :
    process.resolveAddress address backingFile skip =
      (process.filterMaps (if backingFile = "hybrid" then process.fullPath
        else process.fileOf backingFile)).bind (normalizeAndValidateAddress address) := by
  by_cases hybrid : backingFile = "hybrid"
  · subst hybrid
    exact resolveAddress_unfold skip (absent rfl)
  · unfold resolveAddress
    rw [if_neg fun both => relative both.2, if_neg (not_or.mpr ⟨hybrid, relative⟩),
      if_neg hybrid]
    rfl

theorem selected_alias
    (own : backingFile ∈ ["hybrid", "binary", process.fullPath, process.name]) :
    (if backingFile = "hybrid" then process.fullPath else process.fileOf backingFile) =
      process.fullPath := by
  by_cases hybrid : backingFile = "hybrid"
  · exact if_pos hybrid
  · simp only [List.mem_cons, List.not_mem_nil, or_false, hybrid, false_or] at own
    rw [if_neg hybrid]
    exact if_pos (or_left_comm.mp own)

theorem resolveSymbol_alias {symbol : String}
    (own : backingFile ∈ ["hybrid", "binary", process.fullPath, process.name])
    (relative : backingFile ≠ "absolute") :
    process.resolveSymbol symbol backingFile =
      (process.filterMaps process.fullPath).bind fun found =>
        process.resolveSymbolInMaps symbol found.val := by
  have selected := selected_alias own
  unfold resolveSymbol
  rw [if_neg relative]
  by_cases hybrid : backingFile = "hybrid"
  · rw [if_pos hybrid]
    rfl
  · rw [if_neg hybrid] at selected ⊢
    rw [selected]
    rfl

theorem head?_append_text {first : String} {letter : Char} (second : String)
    (begins : first.toList.head? = some letter) :
    (first ++ second).toList.head? = some letter := by
  rw [String.toList_append, List.head?_append, begins]
  rfl

theorem head?_severalFiles (backingFile : String) (files : List String) :
    (severalFiles backingFile files).toList.head? = some 'T' := by
  unfold severalFiles
  iterate 5 apply head?_append_text
  decide

theorem head?_noFile (backingFile : String) (files : List String) :
    (noFile backingFile files).toList.head? = some 'T' := by
  unfold noFile
  iterate 5 apply head?_append_text
  decide

/-- The errors of a selection and those of a validation have different texts. -/
theorem filterMaps_error_text {e : AccessError}
    (failed : process.filterMaps backingFile = .error e) :
    ∃ message, e = .valueError message ∧ message.toList.head? = some 'T' := by
  unfold filterMaps at failed
  simp only at failed
  split at failed
  · cases failed
    exact ⟨_, rfl, head?_severalFiles _ _⟩
  · split at failed
    · cases failed
      exact ⟨_, rfl, head?_noFile _ _⟩
    · cases failed

theorem normalizeAndValidateAddress_text {e : AccessError}
    (failed : normalizeAndValidateAddress address found = .error e) :
    ∃ message, e = .valueError message ∧ message.toList.head? = some 'A' := by
  unfold normalizeAndValidateAddress at failed
  simp only at failed
  generalize (if address < found.first.start then address + found.first.start else address) =
    place at failed
  by_cases inside : checkAbsoluteAddress place found.val = true
  · rw [if_pos inside] at failed
    cases failed
  · rw [if_neg inside] at failed
    cases failed
    refine ⟨_, rfl, ?_⟩
    iterate 2 apply head?_append_text
    decide

theorem normalizeAndValidateAddress_ne {message : String}
    (text : message.toList.head? = some 'T') :
    Except.error (.valueError message) ≠ normalizeAndValidateAddress address found := by
  intro same
  obtain ⟨other, equal, text'⟩ := normalizeAndValidateAddress_text same.symm
  cases equal
  cases text.symm.trans text'

theorem checkAbsoluteAddress_negative (maps : List MemoryMap) :
    checkAbsoluteAddress (-1) maps = false := by
  apply Bool.eq_false_of_not_eq_true
  intro inside
  obtain ⟨place, _, same⟩ := exists_natural_of_check inside
  omega

/-- The main binary can be addressed by a name of its own if and only if the name is not
the keyword `absolute`, and the path of the binary is no part of the path of another mapped
file. -/
theorem addresses_iff (mapped : ∃ vmap ∈ process.maps, vmap.backingFile = process.fullPath)
    (own : backingFile ∈ ["hybrid", "binary", process.fullPath, process.name]) :
    process.Addresses backingFile ↔ backingFile ≠ "absolute" ∧ process.OwnsPath := by
  constructor
  · rintro ⟨found, maps, resolves, _⟩
    have outside := checkAbsoluteAddress_negative process.maps
    have negative := resolves (-1) false fun _ => outside
    have relative : backingFile ≠ "absolute" := by
      rintro rfl
      unfold resolveAddress at negative
      rw [if_neg (by simp), if_pos (.inr rfl), outside] at negative
      exact normalizeAndValidateAddress_ne (by decide) negative
    refine ⟨relative, ?_⟩
    rw [← filterMaps_fullPath_iff mapped]
    cases selected : process.filterMaps process.fullPath with
    | ok found => exact ⟨found, rfl⟩
    | error e =>
        obtain ⟨message, rfl, text⟩ := filterMaps_error_text selected
        rw [resolveAddress_relativeTo relative fun _ => outside, selected_alias own,
          selected] at negative
        exact absurd negative (normalizeAndValidateAddress_ne text)
  · rintro ⟨relative, owns⟩
    obtain ⟨found, ok⟩ := (filterMaps_fullPath_iff mapped).mpr owns
    have maps := (filterMaps_eq_ok_iff.mp ok).1
    rw [mapsNaming_eq_mapsOf owns] at maps
    refine ⟨found, maps, ?_, ?_⟩
    · intro address skip absent
      rw [resolveAddress_relativeTo relative absent, selected_alias own, ok]
      rfl
    · intro symbol
      rw [resolveSymbol_alias own relative, ok]
      rfl

theorem binTrue_addressed : binTrue.Addresses "binary" := by
  apply (addresses_iff ⟨binTrueMap, .head _, rfl⟩ (.tail _ (.head _))).mpr
  refine ⟨by decide, ?_⟩
  intro vmap member _
  rw [List.mem_singleton.mp member]
  rfl

theorem pluginEnd_le : 0x4000 ≤ 2 ^ 64 := by decide

/-- `/bin/true` and a plugin whose path begins with its own -/
def binTrueWithPlugin : Process :=
  { binTrue with
    maps := [binTrueMap, ⟨0x3000, 0x4000, "/bin/true.d/plugin.so", pluginEnd_le⟩] }

/-- The binary is mapped, and neither an address nor a symbol can be resolved in it. -/
theorem plugin_in_the_way :
    binTrueMap ∈ binTrueWithPlugin.maps ∧
      binTrueMap.backingFile = binTrueWithPlugin.fullPath ∧
      (∀ address, binTrueWithPlugin.resolveAddress address "binary" false = .error (.valueError
        (severalFiles "/bin/true" ["/bin/true", "/bin/true.d/plugin.so"]))) ∧
      ∀ symbol, binTrueWithPlugin.resolveSymbol symbol "binary" = .error (.valueError
        (severalFiles "/bin/true" ["/bin/true", "/bin/true.d/plugin.so"])) := by
  have filtered : binTrueWithPlugin.filterMaps binTrueWithPlugin.fullPath = .error (.valueError
      (severalFiles "/bin/true" ["/bin/true", "/bin/true.d/plugin.so"])) := rfl
  refine ⟨.head _, rfl, ?_, ?_⟩
  · intro address
    rw [resolveAddress_relativeTo (by decide) fun same => absurd same (by decide),
      selected_alias (.tail _ (.head _)), filtered]
    rfl
  · intro symbol
    rw [resolveSymbol_alias (.tail _ (.head _)) (by decide), filtered]
    rfl

end Process

/-! ### Soundness -/

/-- What is resolved lies in a map, and in one of the file if a file is given. -/
theorem normalizeAndValidateAddress_ok
    (resolved : normalizeAndValidateAddress address found = .ok result) :
    checkAbsoluteAddress result found.val = true ∧
      (result = address ∨ result = address + found.first.start) := by
  unfold normalizeAndValidateAddress at resolved
  by_cases below : address < found.first.start
  · simp only [if_pos below] at resolved
    by_cases inside : checkAbsoluteAddress (address + found.first.start) found.val = true
    · rw [if_pos inside] at resolved
      cases resolved
      exact ⟨inside, .inr rfl⟩
    · rw [if_neg inside] at resolved
      cases resolved
  · simp only [if_neg below] at resolved
    by_cases inside : checkAbsoluteAddress address found.val = true
    · rw [if_pos inside] at resolved
      cases resolved
      exact ⟨inside, .inl rfl⟩
    · rw [if_neg inside] at resolved
      cases resolved

namespace Process

/-- A name selects a file if it occurs in the path of no other mapped one. In hybrid mode it is
the path of the main binary. -/
structure Selects (process : Process) (backingFile file : String) : Prop where
  mapped : ∃ vmap ∈ process.maps, vmap.backingFile = file
  occurs : IsIn (if backingFile = "hybrid" then process.fullPath else process.fileOf backingFile)
    file
  single : ∀ vmap ∈ process.maps,
    IsIn (if backingFile = "hybrid" then process.fullPath else process.fileOf backingFile)
      vmap.backingFile → vmap.backingFile = file

/-- What it means for an address to be resolved to another -/
structure Resolves (process : Process) (backingFile : String) (address result : Int) : Prop where
  mapped : checkAbsoluteAddress result process.maps = true
  absolute : backingFile = "absolute" → result = address
  named : backingFile ≠ "hybrid" → backingFile ≠ "absolute" →
    ∃ file, process.Selects backingFile file ∧
      checkAbsoluteAddress result (process.mapsOf file) = true
  offset : result = address ∨ ∃ file, process.Selects backingFile file ∧
    ∃ lowest ∈ process.mapsOf file,
      (∀ vmap ∈ process.mapsOf file, lowest.start ≤ vmap.start) ∧
        result = address + lowest.start

/-- The maps that are selected are those of one file. -/
theorem selects_of_filterMaps
    (filtered : process.filterMaps (if backingFile = "hybrid" then process.fullPath
      else process.fileOf backingFile) = .ok found) :
    ∃ file, process.Selects backingFile file ∧ found.val = process.mapsOf file := by
  obtain ⟨maps, same⟩ := filterMaps_eq_ok_iff.mp filtered
  obtain ⟨first, member⟩ := List.exists_mem_of_ne_nil _ found.property
  rw [maps] at member
  obtain ⟨inside, occurs⟩ := List.mem_filter.mp member
  have single : ∀ vmap ∈ process.maps, IsIn (if backingFile = "hybrid" then process.fullPath
      else process.fileOf backingFile) vmap.backingFile → vmap.backingFile =
        first.backingFile := by
    intro vmap here named
    exact same vmap (List.mem_filter.mpr ⟨here, decide_eq_true named⟩) first member
  refine ⟨first.backingFile, ⟨⟨first, inside, rfl⟩, of_decide_eq_true occurs, single⟩, ?_⟩
  rw [maps]
  apply List.filter_congr
  intro vmap here
  apply decide_eq_decide.mpr
  constructor
  · exact single vmap here
  · intro equal
    rw [equal]
    exact of_decide_eq_true occurs

theorem resolveAddress_keyword :
    process.resolveAddress address "absolute" false =
      if checkAbsoluteAddress address process.maps then .ok address
      else .error (.valueError ("The specified absolute address does not exist. " ++
        "Check the address or specify a backing file.")) := by
  unfold resolveAddress
  rw [if_neg (by simp), if_pos (.inr rfl)]
  split
  · rfl
  · rfl

section Sorted

variable (sorted : process.maps.Pairwise fun a b => a.start ≤ b.start)
include sorted

/-- The first of the maps of a file is the lowest. -/
theorem first_lowest {file : String} (maps : found.val = process.mapsOf file) :
    found.first ∈ process.mapsOf file ∧
      ∀ vmap ∈ process.mapsOf file, found.first.start ≤ vmap.start := by
  obtain ⟨first, rest, split⟩ := List.exists_cons_of_ne_nil found.property
  have head : found.first = first := by
    unfold FileMaps.first
    simp only [split, List.head_cons]
  have order : (process.mapsOf file).Pairwise fun a b => a.start ≤ b.start := sorted.filter _
  rw [← maps, split] at order ⊢
  rw [head]
  refine ⟨.head _, ?_⟩
  intro vmap member
  rcases List.mem_cons.mp member with rfl | later
  · exact le_refl _
  · exact List.rel_of_pairwise_cons order later

/-- An address that is resolved in the maps of a file is resolved to itself from then on. -/
theorem normalizeAndValidateAddress_sound
    (filtered : process.filterMaps (if backingFile = "hybrid" then process.fullPath
      else process.fileOf backingFile) = .ok found)
    (resolved : normalizeAndValidateAddress address found = .ok result)
    (relative : backingFile ≠ "absolute") :
    process.Resolves backingFile address result ∧
      normalizeAndValidateAddress result found = .ok result := by
  obtain ⟨inside, offset⟩ := normalizeAndValidateAddress_ok resolved
  obtain ⟨file, selects, maps⟩ := selects_of_filterMaps filtered
  obtain ⟨first, lowest⟩ := first_lowest sorted maps
  constructor
  · constructor
    · obtain ⟨vmap, member, contains⟩ := checkAbsoluteAddress_iff.mp inside
      exact checkAbsoluteAddress_iff.mpr ⟨vmap, mem_of_filterMaps filtered member, contains⟩
    · intro absolute
      exact absurd absolute relative
    · intro _ _
      exact ⟨file, selects, maps ▸ inside⟩
    · exact offset.imp_right fun moved => ⟨file, selects, found.first, first, lowest, moved⟩
  · obtain ⟨vmap, member, lower, _⟩ := checkAbsoluteAddress_iff.mp inside
    rw [maps] at member
    have below := lowest vmap member
    have above : ¬ result < found.first.start := by omega
    unfold normalizeAndValidateAddress
    simp only [if_neg above, inside, if_true]

/-- A resolution that validates its result raises `ValueError`, or returns an address of a map,
which is the given one or lies as far above the selected file's lowest map, and is resolved to
itself. -/
theorem resolveAddress_sound (backingFile : String) (address : Int) :
    (∃ message, process.resolveAddress address backingFile false =
        .error (.valueError message)) ∨
      ∃ result, process.resolveAddress address backingFile false = .ok result ∧
        process.Resolves backingFile address result ∧
        process.resolveAddress result backingFile false = .ok result := by
  by_cases absolute : backingFile = "absolute"
  · subst absolute
    rw [resolveAddress_keyword]
    cases inside : checkAbsoluteAddress address process.maps with
    | false => exact .inl ⟨_, rfl⟩
    | true =>
        right
        refine ⟨address, rfl, ⟨inside, fun _ => rfl, ?_, .inl rfl⟩, ?_⟩
        · intro _ relative
          exact absurd rfl relative
        · rw [resolveAddress_keyword, if_pos inside]
  by_cases direct : backingFile = "hybrid" ∧ checkAbsoluteAddress address process.maps = true
  · obtain ⟨rfl, inside⟩ := direct
    right
    have itself := resolveAddress_absolute false inside
    refine ⟨address, itself, ⟨inside, fun _ => rfl, ?_, .inl rfl⟩, itself⟩
    intro named
    exact absurd rfl named
  · have absent : backingFile = "hybrid" → checkAbsoluteAddress address process.maps = false :=
      fun hybrid => Bool.eq_false_of_not_eq_true fun inside => direct ⟨hybrid, inside⟩
    rw [resolveAddress_relativeTo absolute absent]
    cases filtered : process.filterMaps (if backingFile = "hybrid" then process.fullPath
        else process.fileOf backingFile) with
    | error e =>
        obtain ⟨message, rfl, _⟩ := filterMaps_error_text filtered
        exact .inl ⟨message, rfl⟩
    | ok found =>
        change (∃ message, normalizeAndValidateAddress address found = _) ∨
          ∃ result, normalizeAndValidateAddress address found = _ ∧ _
        cases resolved : normalizeAndValidateAddress address found with
        | error e =>
            obtain ⟨message, rfl, _⟩ := normalizeAndValidateAddress_text resolved
            exact .inl ⟨message, rfl⟩
        | ok result =>
            right
            obtain ⟨sound, again⟩ :=
              normalizeAndValidateAddress_sound sorted filtered resolved absolute
            refine ⟨result, rfl, sound, ?_⟩
            by_cases hybrid : backingFile = "hybrid"
            · subst hybrid
              exact resolveAddress_absolute false sound.mapped
            · rw [resolveAddress_relativeTo absolute fun same => absurd same hybrid, filtered]
              exact again

end Sorted

theorem binTrue_resolves :
    ∃ result, binTrue.resolveAddress 0x10 "binary" false = .ok result ∧
      binTrue.Resolves "binary" 0x10 result ∧
      binTrue.resolveAddress result "binary" false = .ok result := by
  apply (resolveAddress_sound (List.pairwise_singleton _ binTrueMap) "binary" 0x10).resolve_left
  rintro ⟨message, failed⟩
  cases failed

end Process

end Libdebug.Data
