import Mathlib.Data.List.Nodup

/-!
Dictionaries that remember the order in which their keys were inserted. Setting a
key that is present replaces its value in place. That the keys are distinct is part
of the structure.
-/

namespace Libdebug.Foundation

structure Dict (κ ν : Type) where
  entries : List (κ × ν)
  distinct : (entries.map Prod.fst).Nodup

namespace Dict

variable {κ ν : Type}

def empty : Dict κ ν := ⟨[], List.nodup_nil⟩

def keys (d : Dict κ ν) : List κ := d.entries.map Prod.fst

def values (d : Dict κ ν) : List ν := d.entries.map Prod.snd

variable [DecidableEq κ]

def get? (d : Dict κ ν) (key : κ) : Option ν := (d.entries.find? (·.1 = key)).map Prod.snd

/-- Apply a function to the value of a key, if it is present. -/
def modify (d : Dict κ ν) (key : κ) (f : ν → ν) : Dict κ ν where
  entries := d.entries.map fun e => if e.1 = key then (e.1, f e.2) else e
  distinct := by
    have same : Prod.fst ∘ (fun e : κ × ν => if e.1 = key then (e.1, f e.2) else e) = Prod.fst := by
      funext e
      simp only [Function.comp_apply]
      split <;> rfl
    rw [List.map_map, same]
    exact d.distinct

def set (d : Dict κ ν) (key : κ) (value : ν) : Dict κ ν :=
  if absent : key ∉ d.keys then
    ⟨d.entries ++ [(key, value)], by
      rw [List.map_append]
      refine List.nodup_append.mpr ⟨d.distinct, List.nodup_singleton _, fun a old b new same => ?_⟩
      rw [same, List.mem_singleton.mp new] at old
      exact absent old⟩
  else d.modify key fun _ => value

def erase (d : Dict κ ν) (key : κ) : Dict κ ν where
  entries := d.entries.filter (·.1 ≠ key)
  distinct := d.distinct.sublist (List.filter_sublist.map _)

variable {d : Dict κ ν} {key other : κ} {value : ν} {f : ν → ν}

@[simp] theorem get?_empty : (empty : Dict κ ν).get? key = none := rfl

theorem get?_eq_some : d.get? key = some value ↔ (key, value) ∈ d.entries := by
  constructor
  · intro found
    obtain ⟨⟨k, v⟩, first, rfl⟩ := Option.map_eq_some_iff.mp found
    have same : k = key := by simpa using List.find?_some first
    exact same ▸ List.mem_of_find?_eq_some first
  · intro member
    rcases found : d.entries.find? (·.1 = key) with _ | ⟨k, v⟩
    · simpa using List.find?_eq_none.mp found _ member
    · have same : k = key := by simpa using List.find?_some found
      have unique := List.inj_on_of_nodup_map d.distinct (List.mem_of_find?_eq_some found) member
        same
      simp only [get?, found, unique, Option.map_some]

theorem mem_values : value ∈ d.values ↔ ∃ key, d.get? key = some value := by
  simp [values, get?_eq_some]

theorem mem_keys : key ∈ d.keys ↔ ∃ value, d.get? key = some value := by
  simp [keys, get?_eq_some]

theorem get?_eq_none : d.get? key = none ↔ key ∉ d.keys := by
  rw [mem_keys, Option.eq_none_iff_forall_ne_some, not_exists]

theorem get?_modify : (d.modify key f).get? other =
    if other = key then (d.get? key).map f else d.get? other := by
  have sameKeys : ((fun e : κ × ν => decide (e.1 = other)) ∘
      fun e : κ × ν => if e.1 = key then (e.1, f e.2) else e) = fun e => decide (e.1 = other) := by
    funext e
    simp only [Function.comp_apply]
    split <;> rfl
  simp only [get?, modify, List.find?_map, sameKeys]
  rcases found : d.entries.find? (·.1 = other) with _ | ⟨k, v⟩
  · split
    · rename_i same
      simp only [← same, found, Option.map_none]
    · simp only [found, Option.map_none]
  · have here : k = other := by simpa using List.find?_some found
    split
    · rename_i same
      simp only [← same, found, here, Option.map_some, if_true]
    · rename_i different
      simp only [found, here, different, Option.map_some, if_false]

theorem get?_set : (d.set key value).get? other =
    if other = key then some value else d.get? other := by
  unfold set
  split
  · rename_i absent
    simp only [get?, List.find?_append]
    split
    · rename_i same
      subst same
      have none := get?_eq_none.mpr absent
      simp only [get?, Option.map_eq_none_iff] at none
      simp [none]
    · rename_i different
      simp [Ne.symm different]
  · rename_i present
    obtain ⟨v, found⟩ := mem_keys.mp (not_not.mp present)
    rw [get?_modify, found, Option.map_some]

theorem get?_erase : (d.erase key).get? other = if other = key then none else d.get? other := by
  ext v
  simp only [get?_eq_some, erase, List.mem_filter]
  split
  · rename_i same
    simp [same]
  · rename_i different
    simp [get?_eq_some, different]

@[simp] theorem keys_modify : (d.modify key f).keys = d.keys := by
  simp only [keys, modify, List.map_map]
  congr 1
  funext e
  simp only [Function.comp_apply]
  split <;> rfl

theorem keys_set_of_absent (absent : key ∉ d.keys) : (d.set key value).keys = d.keys ++ [key] := by
  rw [set, dif_pos absent]
  exact List.map_append

theorem entries_set_of_absent (absent : d.get? key = none) :
    (d.set key value).entries = d.entries ++ [(key, value)] := by
  rw [set, dif_pos (get?_eq_none.mp absent)]

theorem entries_set_of_present (present : d.get? key ≠ none) :
    (d.set key value).entries =
      d.entries.map fun e => if e.1 = key then (e.1, value) else e := by
  rw [set, dif_neg fun absent => present (get?_eq_none.mpr absent)]
  rfl

theorem keys_erase : (d.erase key).keys = d.keys.filter (· ≠ key) := by
  rw [keys, keys, List.filter_map]
  rfl

end Dict

end Libdebug.Foundation
