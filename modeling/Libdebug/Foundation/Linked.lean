import Libdebug.Foundation.Dict
import Mathlib.Data.List.Perm.Subperm
import Mathlib.Data.List.TakeWhile

/-!
Singly linked lists in a heap of cells. A link is the address of a cell, or null; an address that
has no cell must not be followed. `Segment` says which cells lie between two links. A chain is a
segment up to null: it has no cell twice, so that a loop along it ends within the size of the heap,
at a place that its condition decides. A segment survives what is stored outside of it, and ends
elsewhere when the link of its last cell is stored.
-/

namespace Libdebug.Foundation.Linked

/-- Null, or an address -/
abbrev Link := Option Nat

structure Cell (α : Type) where
  value : α
  next : Link

/-- The cells that are allocated -/
abbrev Cells (α : Type) := Dict Nat (Cell α)

variable {α σ : Type}

def setValue (cells : Cells α) (p : Nat) (f : α → α) : Cells α :=
  cells.modify p fun cell => { cell with value := f cell.value }

def setNext (cells : Cells α) (p : Nat) (next : Link) : Cells α :=
  cells.modify p fun cell => { cell with next }

/-! ### Loops along the links -/

/-- The two pointers of a loop: `prev` trails `cur` by one cell. -/
structure Cursor where
  prev : Link
  cur : Link

/-- Advance until the condition holds of a cell, or the link is null. There is no result if a cell
is missing, or the fuel does not suffice. -/
def seekWithin (stop : α → Bool) (cells : Cells α) : Nat → Cursor → Option Cursor
  | 0, _ => none
  | _ + 1, ⟨prev, none⟩ => some ⟨prev, none⟩
  | fuel + 1, ⟨prev, some p⟩ =>
      match cells.get? p with
      | none => none
      | some cell =>
          if stop cell.value then some ⟨prev, some p⟩
          else seekWithin stop cells fuel ⟨some p, cell.next⟩

def seek (stop : α → Bool) (cells : Cells α) (cursor : Cursor) : Option Cursor :=
  seekWithin stop cells (cells.keys.length + 1) cursor

/-- Run the body on every cell; it may change the value of the cell. -/
def eachWithin (body : Nat → α → σ → α × σ) :
    Nat → Link → Cells α → σ → Option (Cells α × σ)
  | 0, _, _, _ => none
  | _ + 1, none, cells, s => some (cells, s)
  | fuel + 1, some p, cells, s =>
      match cells.get? p with
      | none => none
      | some cell =>
          let (value, s) := body p cell.value s
          eachWithin body fuel cell.next (setValue cells p fun _ => value) s

def each (body : Nat → α → σ → α × σ) (first : Link) (cells : Cells α) (s : σ) :
    Option (Cells α × σ) :=
  eachWithin body (cells.keys.length + 1) first cells s

/-- Free every cell, once its link has been read. -/
def freeWithin : Nat → Link → Cells α → Option (Cells α)
  | 0, _, _ => none
  | _ + 1, none, cells => some cells
  | fuel + 1, some p, cells =>
      match cells.get? p with
      | none => none
      | some cell => freeWithin fuel cell.next (cells.erase p)

def freeAll (first : Link) (cells : Cells α) : Option (Cells α) :=
  freeWithin (cells.keys.length + 1) first cells

/-- Store a link in the cell before the cursor, or in the head if there is none. -/
def redirect (head : Link) (cells : Cells α) (prev target : Link) : Link × Cells α :=
  match prev with
  | none => (target, cells)
  | some p => (head, setNext cells p target)

/-! ### Segments -/

/-- The addresses and values of the cells from one link to another -/
def Segment (cells : Cells α) : Link → List (Nat × α) → Link → Prop
  | first, [], last => first = last
  | first, (p, value) :: rest, last =>
      first = some p ∧ ∃ next, cells.get? p = some ⟨value, next⟩ ∧ Segment cells next rest last

abbrev Chain (cells : Cells α) (first : Link) (nodes : List (Nat × α)) : Prop :=
  Segment cells first nodes none

/-- The addresses of a list of cells -/
abbrev addresses (nodes : List (Nat × α)) : List Nat := nodes.map Prod.fst

theorem addresses_append (xs ys : List (Nat × α)) :
    addresses (xs ++ ys) = addresses xs ++ addresses ys := List.map_append

theorem addresses_cons (node : Nat × α) (rest : List (Nat × α)) :
    addresses (node :: rest) = node.1 :: addresses rest := rfl

/-- The address of the last cell, or else the link -/
def lastOr (prev : Link) (nodes : List (Nat × α)) : Link := (nodes.getLast?.map Prod.fst).or prev

variable {cells other : Cells α} {first middle last target : Link} {p : Nat} {value : α}
  {nodes xs ys : List (Nat × α)}

@[simp] theorem lastOr_nil (prev : Link) : lastOr prev ([] : List (Nat × α)) = prev := rfl

@[simp] theorem lastOr_cons (prev : Link) (node : Nat × α) (rest : List (Nat × α)) :
    lastOr prev (node :: rest) = lastOr (some node.1) rest := by
  cases rest with
  | nil => rfl
  | cons head rest => simp [lastOr, List.getLast?_cons]

@[simp] theorem lastOr_append_singleton (prev : Link) (nodes : List (Nat × α)) (node : Nat × α) :
    lastOr prev (nodes ++ [node]) = some node.1 := by
  simp [lastOr]

theorem exists_lastOr (p : Nat) (nodes : List (Nat × α)) : ∃ q, lastOr (some p) nodes = some q := by
  unfold lastOr
  cases nodes.getLast? with
  | none => exact ⟨p, rfl⟩
  | some node => exact ⟨node.1, rfl⟩

theorem segment_append : Segment cells first (xs ++ ys) last ↔
    ∃ middle, Segment cells first xs middle ∧ Segment cells middle ys last := by
  induction xs generalizing first with
  | nil => simp [Segment]
  | cons node rest ih =>
      obtain ⟨p, value⟩ := node
      simp only [List.cons_append, Segment, ih]
      constructor
      · rintro ⟨rfl, next, found, middle, before, after⟩
        exact ⟨middle, ⟨rfl, next, found, before⟩, after⟩
      · rintro ⟨middle, ⟨rfl, next, found, before⟩, after⟩
        exact ⟨rfl, next, found, middle, before, after⟩

namespace Segment

theorem get? (segment : Segment cells first nodes last) (member : (p, value) ∈ nodes) :
    ∃ next, cells.get? p = some ⟨value, next⟩ := by
  induction nodes generalizing first with
  | nil => exact absurd member List.not_mem_nil
  | cons node rest ih =>
      obtain ⟨-, next, found, later⟩ := segment
      rcases List.mem_cons.mp member with rfl | below
      · exact ⟨next, found⟩
      · exact ih later below

theorem mem_keys (segment : Segment cells first nodes last) (member : p ∈ addresses nodes) :
    p ∈ cells.keys := by
  obtain ⟨⟨q, value⟩, there, rfl⟩ := List.mem_map.mp member
  obtain ⟨next, found⟩ := segment.get? there
  exact Dict.mem_keys.mpr ⟨_, found⟩

/-- A segment survives what happens to other cells. -/
theorem congr (segment : Segment cells first nodes last)
    (same : ∀ p ∈ addresses nodes, other.get? p = cells.get? p) :
    Segment other first nodes last := by
  induction nodes generalizing first with
  | nil => exact segment
  | cons node rest ih =>
      obtain ⟨here, later⟩ := List.forall_mem_cons.mp same
      obtain ⟨isFirst, next, found, below⟩ := segment
      exact ⟨isFirst, next, here.trans found, ih below later⟩

theorem setNext_other (segment : Segment cells first nodes last) (absent : p ∉ addresses nodes) :
    Segment (setNext cells p target) first nodes last := by
  refine segment.congr fun q member => ?_
  have apart : q ≠ p := fun same => absent (same ▸ member)
  rw [setNext, Dict.get?_modify, if_neg apart]

theorem setValue_other {f : α → α} (segment : Segment cells first nodes last)
    (absent : p ∉ addresses nodes) : Segment (setValue cells p f) first nodes last := by
  refine segment.congr fun q member => ?_
  have apart : q ≠ p := fun same => absent (same ▸ member)
  rw [setValue, Dict.get?_modify, if_neg apart]

theorem erase_other (segment : Segment cells first nodes last) (absent : p ∉ addresses nodes) :
    Segment (cells.erase p) first nodes last := by
  refine segment.congr fun q member => ?_
  have apart : q ≠ p := fun same => absent (same ▸ member)
  rw [Dict.get?_erase, if_neg apart]

/-- A cell is allocated. -/
theorem set_fresh {cell : Cell α} (segment : Segment cells first nodes last)
    (fresh : cells.get? p = none) : Segment (cells.set p cell) first nodes last := by
  refine segment.congr fun q member => ?_
  have apart : q ≠ p := by
    rintro rfl
    exact Dict.get?_eq_none.mp fresh (segment.mem_keys member)
  rw [Dict.get?_set, if_neg apart]

end Segment

/-! ### Chains -/

/-- The links decide which cells are on a chain. -/
theorem Chain.unique (chain : Chain cells first xs) (also : Chain cells first ys) : xs = ys := by
  induction xs generalizing first ys with
  | nil =>
      cases chain
      cases ys with
      | nil => rfl
      | cons node rest => cases also.1
  | cons node rest ih =>
      obtain ⟨rfl, next, found, later⟩ := chain
      cases ys with
      | nil => cases also
      | cons head others =>
          obtain ⟨p, value⟩ := node
          obtain ⟨q, word⟩ := head
          obtain ⟨same, next', found', later'⟩ := also
          cases same
          rw [found] at found'
          cases found'
          rw [ih later later']

/-- A chain has no cell twice: from it the rest would have to be a part of itself. -/
theorem Chain.nodup (chain : Chain cells first nodes) : (addresses nodes).Nodup := by
  induction nodes generalizing first with
  | nil => exact List.nodup_nil
  | cons node rest ih =>
      obtain ⟨p, value⟩ := node
      have whole := chain
      obtain ⟨rfl, next, -, later⟩ := chain
      refine List.nodup_cons.mpr ⟨fun again => ?_, ih later⟩
      obtain ⟨⟨q, word⟩, member, rfl⟩ := List.mem_map.mp again
      obtain ⟨before, after, rfl⟩ := List.append_of_mem member
      obtain ⟨middle, -, tail⟩ := segment_append.mp later
      obtain ⟨rfl, -⟩ := id tail
      have same := congrArg List.length (Chain.unique whole tail)
      simp at same
      omega

theorem Chain.length_le (chain : Chain cells first nodes) : nodes.length ≤ cells.keys.length := by
  have below := (List.subperm_of_subset chain.nodup fun p member => chain.mem_keys member).length_le
  simpa using below

/-- The cells before and after a place on a chain are different ones. -/
theorem Chain.disjoint (chain : Chain cells first (xs ++ ys)) :
    List.Disjoint (addresses xs) (addresses ys) := by
  have apart := chain.nodup
  rw [addresses_append] at apart
  exact List.disjoint_of_nodup_append apart

/-! ### Where a loop stops -/

/-- The condition holds of none of the cells before the place, and of the one at it. -/
structure StopsAt (stop : α → Bool) (cells : Cells α) (first middle : Link)
    (before after : List (Nat × α)) : Prop where
  segment : Segment cells first before middle
  chain : Chain cells middle after
  passed : ∀ node ∈ before, stop node.2 = false
  stops : ∀ node ∈ after.head?, stop node.2 = true

/-- There is such a place on every chain. -/
theorem Chain.exists_stopsAt (chain : Chain cells first nodes) (stop : α → Bool) :
    ∃ before after middle, nodes = before ++ after ∧
      StopsAt stop cells first middle before after := by
  have split := List.takeWhile_append_dropWhile (p := fun node => !stop node.2) (l := nodes)
  rw [← split] at chain
  obtain ⟨middle, before, after⟩ := segment_append.mp chain
  refine ⟨_, _, middle, split.symm, before, after, fun node member => ?_, fun node member => ?_⟩
  · simpa using List.mem_takeWhile_imp member
  · have last := List.head?_dropWhile_not (fun node => !stop node.2) nodes
    rw [Option.mem_def.mp member] at last
    simpa using last

namespace StopsAt

variable {stop : α → Bool} {before after : List (Nat × α)}

theorem set_fresh {cell : Cell α} (stopsAt : StopsAt stop cells first middle before after)
    (fresh : cells.get? p = none) : StopsAt stop (cells.set p cell) first middle before after where
  segment := stopsAt.segment.set_fresh fresh
  chain := stopsAt.chain.set_fresh fresh
  passed := stopsAt.passed
  stops := stopsAt.stops

theorem seekWithin {fuel : Nat} (stopsAt : StopsAt stop cells first middle before after)
    (prev : Link) (enough : before.length < fuel) :
    Linked.seekWithin stop cells fuel ⟨prev, first⟩ = some ⟨lastOr prev before, middle⟩ := by
  obtain ⟨segment, chain, passed, stops⟩ := stopsAt
  induction before generalizing first fuel prev with
  | nil =>
      cases segment
      cases fuel with
      | zero => exact absurd enough (Nat.not_lt_zero _)
      | succ fuel =>
          cases after with
          | nil =>
              cases chain
              rfl
          | cons node rest =>
              obtain ⟨rfl, next, found, -⟩ := chain
              have here := stops node rfl
              simp [Linked.seekWithin, found, here]
  | cons node rest ih =>
      obtain ⟨rfl, next, found, later⟩ := segment
      obtain ⟨here, below⟩ := List.forall_mem_cons.mp passed
      cases fuel with
      | zero => exact absurd enough (Nat.not_lt_zero _)
      | succ fuel =>
          rw [lastOr_cons, ← ih (some node.1) (Nat.lt_of_succ_lt_succ enough) later below]
          simp [Linked.seekWithin, found, here]

theorem seek (stopsAt : StopsAt stop cells first middle before after) (prev : Link) :
    Linked.seek stop cells ⟨prev, first⟩ = some ⟨lastOr prev before, middle⟩ := by
  apply stopsAt.seekWithin
  have short := Chain.length_le (segment_append.mpr ⟨middle, stopsAt.segment, stopsAt.chain⟩)
  rw [List.length_append] at short
  omega

end StopsAt

/-- A loop from the head ends past the last cell, or at the first one with the property. -/
theorem Chain.seek_cases (chain : Chain cells first nodes) (stop : α → Bool) :
    ((∀ node ∈ nodes, stop node.2 = false) ∧
      ∃ prev, seek stop cells ⟨none, first⟩ = some ⟨prev, none⟩) ∨
    ∃ before p value after, nodes = before ++ (p, value) :: after ∧
      (∀ node ∈ before, stop node.2 = false) ∧ stop value = true ∧
      Segment cells first before (some p) ∧
      seek stop cells ⟨none, first⟩ = some ⟨lastOr none before, some p⟩ := by
  obtain ⟨before, after, middle, rfl, stopsAt⟩ := chain.exists_stopsAt stop
  have found := stopsAt.seek none
  obtain ⟨segment, rest, passed, stops⟩ := stopsAt
  cases after with
  | nil =>
      cases rest
      exact .inl ⟨by simpa using passed, _, found⟩
  | cons node after =>
      have here := stops node rfl
      obtain ⟨rfl, -⟩ := rest
      exact .inr ⟨before, node.1, node.2, after, rfl, passed, here, segment, found⟩

/-! ### Changes of a chain -/

/-- A cell is on a chain only once. -/
theorem Chain.only_once (chain : Chain cells first (xs ++ (p, value) :: ys)) :
    p ∉ addresses (xs ++ ys) := by
  have distinct := chain.nodup
  rw [addresses_append, addresses_cons, List.nodup_middle] at distinct
  rw [addresses_append]
  exact (List.nodup_cons.mp distinct).1

/-- The last link of a segment is stored. -/
theorem Segment.redirect (segment : Segment cells first xs middle)
    (distinct : (addresses xs).Nodup) (target : Link) :
    Segment (redirect first cells (lastOr none xs) target).2
      (redirect first cells (lastOr none xs) target).1 xs target := by
  rcases List.eq_nil_or_concat xs with rfl | ⟨init, ⟨p, value⟩, rfl⟩
  · rfl
  · rw [List.concat_eq_append] at segment distinct ⊢
    rw [lastOr_append_singleton]
    rw [addresses_append, List.nodup_append] at distinct
    obtain ⟨link, before, rfl, next, found, -⟩ := segment_append.mp segment
    refine segment_append.mpr ⟨some p, ?_, rfl, target, ?_, rfl⟩
    · exact before.setNext_other fun member =>
        distinct.2.2 p member p (List.mem_singleton_self p) rfl
    · simp only [Linked.redirect, Linked.setNext, Dict.get?_modify, if_true, found, Option.map_some]

/-- Only the last cell of the segment is changed for it. -/
theorem get?_redirect (absent : p ∉ addresses xs) :
    (redirect first cells (lastOr none xs) target).2.get? p = cells.get? p := by
  rcases List.eq_nil_or_concat xs with rfl | ⟨init, ⟨q, value⟩, rfl⟩
  · rfl
  · rw [List.concat_eq_append] at absent ⊢
    rw [lastOr_append_singleton]
    have apart : p ≠ q := by
      rintro rfl
      exact absent (by simp)
    simp only [redirect, setNext, Dict.get?_modify, if_neg apart]

/-- A new cell, which already leads on, is put before the place. -/
theorem Segment.insert (before : Segment cells first xs middle) (after : Chain cells middle ys)
    (fresh : cells.get? p = none) (allocated : other.get? p = some ⟨value, middle⟩)
    (same : ∀ q ≠ p, other.get? q = cells.get? q) :
    Chain (Linked.redirect first other (lastOr none xs) (some p)).2
      (Linked.redirect first other (lastOr none xs) (some p)).1 (xs ++ (p, value) :: ys) := by
  have whole : Chain cells first (xs ++ ys) := segment_append.mpr ⟨middle, before, after⟩
  have missing : ∀ {nodes first last}, Segment cells first nodes last → p ∉ addresses nodes :=
    fun segment member => Dict.get?_eq_none.mp fresh (segment.mem_keys member)
  have kept : ∀ {nodes first last}, Segment cells first nodes last →
      Segment other first nodes last := fun segment => segment.congr fun q member =>
    same q fun equal => missing segment (equal ▸ member)
  have distinct := whole.nodup
  rw [addresses_append] at distinct
  refine segment_append.mpr ⟨some p, (kept before).redirect distinct.of_append_left _, rfl, middle,
    ?_, ?_⟩
  · rw [get?_redirect (missing before), allocated]
  · exact (kept after).congr fun q member =>
      get?_redirect fun earlier => whole.disjoint earlier member

/-- The cell at the place is taken off the chain. -/
theorem Chain.unlink (chain : Chain cells first (xs ++ (p, value) :: ys))
    (before : Segment cells first xs (some p)) {next : Link}
    (found : cells.get? p = some ⟨value, next⟩) :
    Chain (redirect first cells (lastOr none xs) next).2
      (redirect first cells (lastOr none xs) next).1 (xs ++ ys) := by
  obtain ⟨link, also, rfl, next', found', after⟩ := segment_append.mp chain
  rw [found] at found'
  cases found'
  have distinct := chain.nodup
  rw [addresses_append] at distinct
  refine segment_append.mpr ⟨next, before.redirect distinct.of_append_left _, ?_⟩
  exact after.congr fun q member =>
    get?_redirect fun earlier => chain.disjoint earlier (List.mem_cons_of_mem _ member)

/-- The value of a cell is changed. -/
theorem Chain.setValue (chain : Chain cells first (xs ++ (p, value) :: ys)) (f : α → α) :
    Chain (setValue cells p f) first (xs ++ (p, f value) :: ys) := by
  have distinct := chain.nodup
  rw [addresses_append, List.nodup_append, addresses_cons, List.nodup_cons] at distinct
  obtain ⟨middle, before, rfl, next, found, after⟩ := segment_append.mp chain
  refine segment_append.mpr ⟨some p, ?_, rfl, next, ?_, ?_⟩
  · exact before.setValue_other fun member =>
      distinct.2.2 p member p List.mem_cons_self rfl
  · simp only [Linked.setValue, Dict.get?_modify, if_true, found, Option.map_some]
  · exact after.setValue_other distinct.2.1.1

/-! ### Loops over a whole chain -/

/-- What a loop over a list of cells leaves -/
def visit (body : Nat → α → σ → α × σ) : List (Nat × α) → σ → List (Nat × α) × σ
  | [], s => ([], s)
  | (p, value) :: rest, s =>
      let (value, s) := body p value s
      let (rest, s) := visit body rest s
      ((p, value) :: rest, s)

theorem visit_append (body : Nat → α → σ → α × σ) (xs ys : List (Nat × α)) (s : σ) :
    (visit body (xs ++ ys) s).2 = (visit body ys (visit body xs s).2).2 := by
  induction xs generalizing s with
  | nil => rfl
  | cons node rest ih => exact ih _

theorem Chain.eachWithin {fuel : Nat} (chain : Chain cells first nodes)
    (body : Nat → α → σ → α × σ) (s : σ) (enough : nodes.length < fuel) :
    ∃ left, Linked.eachWithin body fuel first cells s = some (left, (visit body nodes s).2) ∧
      Chain left first (visit body nodes s).1 ∧
      ∀ p ∉ addresses nodes, left.get? p = cells.get? p := by
  induction nodes generalizing first cells fuel s with
  | nil =>
      cases chain
      cases fuel with
      | zero => exact absurd enough (Nat.not_lt_zero _)
      | succ fuel => exact ⟨cells, rfl, rfl, fun _ _ => rfl⟩
  | cons node rest ih =>
      obtain ⟨p, value⟩ := node
      have absent := (List.nodup_cons.mp chain.nodup).1
      obtain ⟨rfl, next, found, later⟩ := chain
      have stored : (Linked.setValue cells p fun _ => (body p value s).1).get? p =
          some ⟨(body p value s).1, next⟩ := by
        simp only [Linked.setValue, Dict.get?_modify, if_true, found, Option.map_some]
      cases fuel with
      | zero => exact absurd enough (Nat.not_lt_zero _)
      | succ fuel =>
          obtain ⟨left, ended, kept, others⟩ :=
            ih (Segment.setValue_other later absent) (body p value s).2
              (Nat.lt_of_succ_lt_succ enough)
          refine ⟨left, ?_, ⟨rfl, next, (others p absent).trans stored, kept⟩, fun q outside => ?_⟩
          · simp only [Linked.eachWithin, found]
            exact ended
          · rw [addresses_cons, List.mem_cons, not_or] at outside
            rw [others q outside.2, Linked.setValue, Dict.get?_modify, if_neg outside.1]

/-- A loop over a chain ends, and the chain has the same cells then, with their new values. -/
theorem Chain.each (chain : Chain cells first nodes) (body : Nat → α → σ → α × σ) (s : σ) :
    ∃ left, Linked.each body first cells s = some (left, (visit body nodes s).2) ∧
      Chain left first (visit body nodes s).1 := by
  obtain ⟨left, ended, kept, -⟩ :=
    chain.eachWithin body s (Nat.lt_succ_of_le chain.length_le)
  exact ⟨left, ended, kept⟩

theorem Chain.freeWithin {fuel : Nat} (chain : Chain cells first nodes)
    (enough : nodes.length < fuel) : ∃ left, Linked.freeWithin fuel first cells = some left := by
  induction nodes generalizing first cells fuel with
  | nil =>
      cases chain
      cases fuel with
      | zero => exact absurd enough (Nat.not_lt_zero _)
      | succ fuel => exact ⟨cells, rfl⟩
  | cons node rest ih =>
      have absent := (List.nodup_cons.mp chain.nodup).1
      obtain ⟨rfl, next, found, later⟩ := chain
      cases fuel with
      | zero => exact absurd enough (Nat.not_lt_zero _)
      | succ fuel =>
          obtain ⟨left, ended⟩ :=
            ih (Segment.erase_other later absent) (Nat.lt_of_succ_lt_succ enough)
          refine ⟨left, ?_⟩
          rw [Linked.freeWithin, found]
          exact ended

/-- No cell is read after it has been freed. -/
theorem Chain.freeAll (chain : Chain cells first nodes) :
    ∃ left, Linked.freeAll first cells = some left :=
  chain.freeWithin (Nat.lt_succ_of_le chain.length_le)

end Libdebug.Foundation.Linked
