import Mathlib.Data.List.Basic

/-!
Dictionaries that hold their keys weakly, where the keys are objects that may change. An
entry remembers the hash its key had when it was made; it is found by an object that has
that hash now and equals the key as it is now. It goes when its key is collected, whichever
object it was last written through.

In which order the entries of one hash are compared is not specified: `Probing` is any way
of finding one.
-/

namespace Libdebug.Foundation

structure WeakEntry (V : Type) where
  hash : Nat
  key : Nat
  value : V
  deriving DecidableEq, Repr

abbrev WeakDict (V : Type) := List (WeakEntry V)

/-- A way of finding an entry, if there is one. -/
structure Probing (V : Type) where
  find : (WeakEntry V → Bool) → WeakDict V → Option (WeakEntry V)
  found : ∀ {p d e}, find p d = some e → e ∈ d ∧ p e = true
  notFound : ∀ {p d}, find p d = none → ∀ e ∈ d, p e = false

/-- The entries are compared in the order in which they were made. -/
def Probing.inOrder (V : Type) : Probing V where
  find := List.find?
  found there := ⟨List.mem_of_find?_eq_some there, List.find?_some there⟩
  notFound none e member := by simpa using List.find?_eq_none.mp none e member

variable {O V : Type} [DecidableEq O] (hash : O → Nat) (probe : Probing V)

/-- The entry is found by an object with these contents; `heap` tells the contents of the
live objects. -/
def WeakEntry.FoundBy (heap : Nat → Option O) (object : O) (e : WeakEntry V) : Prop :=
  e.hash = hash object ∧ heap e.key = some object

instance (heap : Nat → Option O) (object : O) (e : WeakEntry V) :
    Decidable (e.FoundBy hash heap object) :=
  inferInstanceAs (Decidable (_ ∧ _))

namespace WeakDict

def entry? (d : WeakDict V) (heap : Nat → Option O) (object : O) : Option (WeakEntry V) :=
  probe.find (fun e => decide (e.FoundBy hash heap object)) d

def get? (d : WeakDict V) (heap : Nat → Option O) (object : O) : Option V :=
  (d.entry? hash probe heap object).map (·.value)

/-- The key of an entry has been collected. -/
def collect (d : WeakDict V) (ref : Nat) : WeakDict V := d.filter fun e => e.key ≠ ref

section

variable {hash} {probe} {d : WeakDict V} {heap : Nat → Option O} {object : O} {value : V}

theorem exists_of_get? (found : d.get? hash probe heap object = some value) :
    ∃ e ∈ d, e.FoundBy hash heap object ∧ e.value = value := by
  obtain ⟨e, there, rfl⟩ := Option.map_eq_some_iff.mp found
  obtain ⟨member, found⟩ := probe.found there
  exact ⟨e, member, of_decide_eq_true found, rfl⟩

theorem get?_of_exists (probe : Probing V) {e : WeakEntry V} (member : e ∈ d)
    (found : e.FoundBy hash heap object) :
    ∃ value, d.get? hash probe heap object = some value := by
  rcases there : d.entry? hash probe heap object with _ | other
  · have absent := probe.notFound there e member
    exact absurd found (of_decide_eq_false absent)
  · exact ⟨other.value, by rw [get?, there]; rfl⟩

theorem mem_collect {ref : Nat} {e : WeakEntry V} :
    e ∈ d.collect ref ↔ e ∈ d ∧ e.key ≠ ref := by
  simp [collect]

end

variable [DecidableEq V]

/-- Where an entry is found its value is replaced, and its key stays. -/
def set (d : WeakDict V) (heap : Nat → Option O) (ref : Nat) (object : O) (value : V) :
    WeakDict V :=
  match d.entry? hash probe heap object with
  | some found => d.map fun e => if e = found then { e with value } else e
  | none => d ++ [⟨hash object, ref, value⟩]

variable {d : WeakDict V} {heap : Nat → Option O} {object : O} {value : V}

/-- Every entry that is there after a write was there before, but for its value, or is the
one that was written. -/
theorem mem_set {hash : O → Nat} {probe : Probing V} {ref : Nat} {e : WeakEntry V}
    (member : e ∈ d.set hash probe heap ref object value) :
    e ∈ d ∨ e.value = value ∧ ((∃ old ∈ d, old.hash = e.hash ∧ old.key = e.key ∧
        old.FoundBy hash heap object) ∨
      e.hash = hash object ∧ e.key = ref) := by
  unfold set at member
  rcases there : d.entry? hash probe heap object with _ | found
  · rw [there] at member
    rcases List.mem_append.mp member with old | new
    · exact .inl old
    · rw [List.mem_singleton] at new
      exact .inr ⟨by rw [new], .inr ⟨by rw [new], by rw [new]⟩⟩
  · rw [there] at member
    obtain ⟨old, oldMember, rfl⟩ := List.mem_map.mp member
    split
    · rename_i same
      obtain ⟨foundMember, foundBy⟩ := probe.found there
      exact .inr ⟨rfl, .inl ⟨old, oldMember, rfl, rfl, same ▸ of_decide_eq_true foundBy⟩⟩
    · exact .inl oldMember

/-- No key is lost by a write. -/
theorem keys_set (heap : Nat → Option O) (ref : Nat) (object : O) (value : V) {e : WeakEntry V}
    (member : e ∈ d) :
    ∃ e' ∈ d.set hash probe heap ref object value, e'.hash = e.hash ∧ e'.key = e.key := by
  unfold set
  rcases there : d.entry? hash probe heap object with _ | found
  · exact ⟨e, List.mem_append_left _ member, rfl, rfl⟩
  · refine ⟨_, List.mem_map_of_mem member, ?_⟩
    split <;> exact ⟨rfl, rfl⟩

/-- After a write the object finds an entry, of which it may not be the key. -/
theorem exists_set (d : WeakDict V) (heap : Nat → Option O) (ref : Nat) (object : O) (value : V) :
    ∃ e ∈ d.set hash probe heap ref object value, e.hash = hash object ∧
      (e.key = ref ∨ heap e.key = some object) := by
  rcases there : d.entry? hash probe heap object with _ | found
  · refine ⟨⟨hash object, ref, value⟩, ?_, rfl, .inl rfl⟩
    simp [set, there]
  · obtain ⟨member, foundBy⟩ := probe.found there
    obtain ⟨hashed, equal⟩ := of_decide_eq_true foundBy
    obtain ⟨e, there, sameHash, sameKey⟩ := keys_set hash probe heap ref object value member
    exact ⟨e, there, sameHash.trans hashed, .inr (sameKey ▸ equal)⟩

end WeakDict

end Libdebug.Foundation
