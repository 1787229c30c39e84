import Libdebug.Foundation.Dict
import Mathlib.Data.List.Perm.Subperm

/-!
Tables of file descriptors. What is opened gets the lowest free descriptor, so that descriptors
opened one after the other increase; `dup2` puts one in the place of another; and a program that
is executed keeps the descriptors that are inheritable.
-/

namespace Libdebug.Foundation

structure Descriptor (File : Type) where
  file : File
  inheritable : Bool
  deriving DecidableEq

abbrev Descriptors (File : Type) := Dict Nat (Descriptor File)

namespace Descriptors

variable {File : Type} (table : Descriptors File)

/-- The lowest free descriptor: among as many as are open and one more, one is free. -/
def lowest : Nat := ((List.range (table.keys.length + 1)).find? (· ∉ table.keys)).getD 0

/-- Open a file; a new descriptor is not inheritable. -/
def openFile (file : File) : Nat × Descriptors File :=
  (table.lowest, table.set table.lowest ⟨file, false⟩)

/-- Only an open descriptor can be closed. -/
def close (fd : Nat) : Option (Descriptors File) :=
  (table.get? fd).map fun _ => table.erase fd

/-- The copy is inheritable, also where it takes its own place. -/
def dup2 (fd copy : Nat) : Option (Descriptors File) :=
  (table.get? fd).map fun descriptor => table.set copy { descriptor with inheritable := true }

/-- What is left when a program is executed -/
def exec : Descriptors File where
  entries := table.entries.filter (·.2.inheritable)
  distinct := table.distinct.sublist (List.filter_sublist.map _)

/-! ### The lowest descriptor -/

theorem lowest_spec :
    table.get? table.lowest = none ∧ ∀ fd < table.lowest, table.get? fd ≠ none := by
  unfold lowest
  rcases found : (List.range (table.keys.length + 1)).find? (· ∉ table.keys) with _ | fd
  · -- there are more numbers than descriptors
    have all : List.range (table.keys.length + 1) ⊆ table.keys := by
      intro fd member
      simpa using List.find?_eq_none.mp found fd member
    have fits := ((List.nodup_range).subperm all).length_le
    rw [List.length_range] at fits
    omega
  · obtain ⟨free, -, used⟩ := List.find?_range_eq_some.mp found
    refine ⟨Dict.get?_eq_none.mpr (of_decide_eq_true free), fun other below => ?_⟩
    rw [ne_eq, Dict.get?_eq_none]
    simpa using used other below

/-- What is opened gets a descriptor that is free, and above which none that is free is passed
over. -/
structure OpensAt (file : File) (fd : Nat) (opened : Descriptors File) : Prop where
  eq : table.openFile file = (fd, opened)
  free : table.get? fd = none
  used : ∀ lower < fd, table.get? lower ≠ none
  found : ∀ other, opened.get? other = if other = fd then some ⟨file, false⟩ else table.get? other

theorem exists_opensAt (file : File) : ∃ fd opened, OpensAt table file fd opened :=
  ⟨table.lowest, _, rfl, (lowest_spec table).1, (lowest_spec table).2, fun _ => Dict.get?_set⟩

variable {table} {file : File} {fd other : Nat} {opened : Descriptors File}

theorem OpensAt.self (opens : OpensAt table file fd opened) :
    opened.get? fd = some ⟨file, false⟩ := by
  rw [opens.found, if_pos rfl]

theorem OpensAt.kept (opens : OpensAt table file fd opened) (lower : other < fd) :
    opened.get? other = table.get? other := by
  rw [opens.found, if_neg (Nat.ne_of_lt lower)]

/-- What is opened next gets a higher descriptor, which was free before. -/
theorem OpensAt.higher (opens : OpensAt table file fd opened) (free : opened.get? other = none) :
    fd < other ∧ table.get? other = none := by
  rw [opens.found] at free
  split at free
  · cases free
  · rename_i different
    refine ⟨Nat.lt_of_not_le fun lower => ?_, free⟩
    exact opens.used other (Nat.lt_of_le_of_ne lower different) free

theorem exists_close (isOpen : table.get? fd ≠ none) : ∃ closed, table.close fd = some closed ∧
    ∀ other, closed.get? other = if other = fd then none else table.get? other := by
  obtain ⟨descriptor, found⟩ := Option.ne_none_iff_exists'.mp isOpen
  refine ⟨table.erase fd, ?_, fun _ => Dict.get?_erase⟩
  rw [close, found, Option.map_some]

theorem exists_dup2 {descriptor : Descriptor File} (found : table.get? fd = some descriptor)
    (copy : Nat) : ∃ copied, table.dup2 fd copy = some copied ∧ ∀ other, copied.get? other =
      if other = copy then some { descriptor with inheritable := true }
      else table.get? other := by
  refine ⟨table.set copy { descriptor with inheritable := true }, ?_, fun _ => Dict.get?_set⟩
  rw [dup2, found, Option.map_some]

theorem get?_exec : table.exec.get? fd = (table.get? fd).filter (·.inheritable) := by
  ext descriptor
  rw [Option.filter_eq_some_iff, Dict.get?_eq_some, Dict.get?_eq_some]
  exact List.mem_filter

end Descriptors

end Libdebug.Foundation
