import Libdebug.Cffi.SoftwareBreakpoints
import Libdebug.Foundation.Linked
import Libdebug.Foundation.Runs

/-!
`b_HEAD` as a linked list of nodes, with the cursors of the loops that look for a place in it and
the stores that put a node there or take it out. The functions on nodes refine those on the list
of entries in link order. Along every sequence of calls the list is ordered by address, and it is
the finite map that the calls describe.
-/

namespace Libdebug.Cffi

open Libdebug.Foundation Libdebug.Foundation.Linked

/-! ### The functions on nodes -/

/-- `b_HEAD`, and the nodes that are allocated -/
structure BreakpointList where
  bHead : Link
  nodes : Cells SoftwareBreakpoint

namespace BreakpointList

def empty : BreakpointList := ⟨none, .empty⟩

variable {K : Type} (l : BreakpointList)

/-- The loop that looks for an address; `b` is the current node, and null at the end. -/
def find (address : Nat) : Option Cursor :=
  seek (fun b => b.addr = address) l.nodes ⟨none, l.bHead⟩

/-- The second half of `register_breakpoint`. `malloc` has returned `b`. -/
def insert (b : Ptr) (breakpoint : SoftwareBreakpoint) : Option BreakpointList :=
  -- the link of the new node is not set yet
  let nodes := l.nodes.set b ⟨breakpoint, none⟩
  match l.bHead with
  | none => some ⟨some b, setNext nodes b l.bHead⟩
  | some head =>
      match nodes.get? head with
      | none => none
      | some first =>
          if first.value.addr > breakpoint.addr then some ⟨some b, setNext nodes b l.bHead⟩
          else
            match seek (fun next => ¬ next.addr < breakpoint.addr) nodes
              ⟨some head, first.next⟩ with
            | some ⟨some prev, next⟩ =>
                some ⟨l.bHead, setNext (setNext nodes b next) prev (some b)⟩
            | _ => none

/-- There is no result where a pointer that is followed leads nowhere, or a loop has no end. -/
def registerBreakpoint (w : World K) (address : Nat) (malloc : Ptr) :
    Option (BreakpointList × World K) :=
  let instruction := w.peekdata address
  let patchedInstruction := installBreakpoint instruction
  let w := w.pokedata address patchedInstruction
  match l.find address with
  | none => none
  | some ⟨_, some b⟩ =>
      some ({ l with nodes := setValue l.nodes b fun b => { b with enabled := true } }, w)
  | some ⟨_, none⟩ =>
      (l.insert malloc
        { addr := address, instruction, patchedInstruction, enabled := true,
          patched := rfl }).map fun l => (l, w)

def unregisterBreakpoint (address : Nat) : Option BreakpointList :=
  match l.find address with
  | none => none
  | some ⟨_, none⟩ => some l
  | some ⟨prev, some b⟩ =>
      match l.nodes.get? b with
      | none => none
      | some node =>
          let (bHead, nodes) := redirect l.bHead l.nodes prev node.next
          some ⟨bHead, nodes.erase b⟩

/-- The function that switches an entry, to a flag and with one of its words. Only a node that has
been found leads to `state->t_HEAD->tid`. -/
def switchBreakpoint (enabled : Bool) (word : SoftwareBreakpoint → Word) (tHead : List Thread)
    (w : World K) (address : Nat) : Option (BreakpointList × World K) :=
  match l.find address with
  | none => none
  | some ⟨_, none⟩ => some (l, w)
  | some ⟨_, some b⟩ =>
      match l.nodes.get? b, tHead with
      | some node, _ :: _ =>
          some ({ l with nodes := setValue l.nodes b fun b => { b with enabled } },
            w.pokedata address (word node.value))
      | _, _ => none

def enableBreakpoint (tHead : List Thread) (w : World K) (address : Nat) :
    Option (BreakpointList × World K) :=
  l.switchBreakpoint true (·.patchedInstruction) tHead w address

def disableBreakpoint (tHead : List Thread) (w : World K) (address : Nat) :
    Option (BreakpointList × World K) :=
  l.switchBreakpoint false (·.instruction) tHead w address

def freeBreakpoints : Option BreakpointList :=
  (freeAll l.bHead l.nodes).map fun nodes => ⟨none, nodes⟩

/-- The entries of the nodes, in link order -/
def Represents (bHead : List SoftwareBreakpoint) : Prop :=
  ∃ nodes, Chain l.nodes l.bHead nodes ∧ nodes.map Prod.snd = bHead

end BreakpointList

/-! ### The functions on entries, at a place -/

section Places

variable {address : Nat} {b : SoftwareBreakpoint} {xs ys bHead : List SoftwareBreakpoint}

theorem insertAfter_append (below : ∀ entry ∈ xs, entry.addr < b.addr)
    (above : ∀ entry ∈ ys.head?, ¬ entry.addr < b.addr) :
    insertAfter b (xs ++ ys) = xs ++ b :: ys := by
  induction xs with
  | nil =>
      cases ys with
      | nil => rfl
      | cons next rest => exact if_neg (above next rfl)
  | cons next rest ih =>
      obtain ⟨smaller, later⟩ := List.forall_mem_cons.mp below
      rw [List.cons_append, insertAfter, if_pos smaller, ih later, List.cons_append]

theorem removeEntry_of_absent (absent : findEntry address bHead = none) :
    removeEntry address bHead = bHead := by
  have others := findEntry_none.mp absent
  clear absent
  induction bHead with
  | nil => rfl
  | cons entry rest ih =>
      obtain ⟨other, later⟩ := List.forall_mem_cons.mp others
      rw [removeEntry, if_neg other, ih later]

variable (others : ∀ entry ∈ xs, entry.addr ≠ address) (here : b.addr = address)

include others here

theorem findEntry_append : findEntry address (xs ++ b :: ys) = some b := by
  rw [findEntry, List.find?_append, List.find?_eq_none.mpr (by simpa using others)]
  simp [here]

theorem setEnabled_append (enabled : Bool) :
    setEnabled address enabled (xs ++ b :: ys) = xs ++ { b with enabled } :: ys := by
  induction xs with
  | nil => exact if_pos here
  | cons entry rest ih =>
      obtain ⟨other, later⟩ := List.forall_mem_cons.mp others
      rw [List.cons_append, setEnabled, if_neg other, ih later, List.cons_append]

theorem removeEntry_append : removeEntry address (xs ++ b :: ys) = xs ++ ys := by
  induction xs with
  | nil => exact if_pos here
  | cons entry rest ih =>
      obtain ⟨other, later⟩ := List.forall_mem_cons.mp others
      rw [List.cons_append, removeEntry, if_neg other, ih later, List.cons_append]

end Places

/-! ### The nodes refine the entries -/

namespace BreakpointList

variable {K : Type} {l : BreakpointList} {bHead : List SoftwareBreakpoint} {address : Nat}

/-- The loop ends at the first node with the address, or past the last one. -/
theorem find_cases {nodes : List (Nat × SoftwareBreakpoint)} (chain : Chain l.nodes l.bHead nodes)
    (address : Nat) :
    (findEntry address (nodes.map Prod.snd) = none ∧
      ∃ prev, l.find address = some ⟨prev, none⟩) ∨
    ∃ before p b after, nodes = before ++ (p, b) :: after ∧
      (∀ entry ∈ before.map Prod.snd, entry.addr ≠ address) ∧ b.addr = address ∧
      Segment l.nodes l.bHead before (some p) ∧
      l.find address = some ⟨lastOr none before, some p⟩ := by
  have other : ∀ {nodes : List (Nat × SoftwareBreakpoint)},
      (∀ node ∈ nodes, decide (node.2.addr = address) = false) →
        ∀ entry ∈ nodes.map Prod.snd, entry.addr ≠ address := by
    intro nodes passed entry member
    obtain ⟨node, there, rfl⟩ := List.mem_map.mp member
    exact of_decide_eq_false (passed node there)
  rcases chain.seek_cases fun b => decide (b.addr = address) with
    ⟨passed, prev, found⟩ | ⟨before, p, b, after, rfl, passed, here, segment, found⟩
  · exact .inl ⟨findEntry_none.mpr (other passed), prev, found⟩
  · exact .inr ⟨before, p, b, after, rfl, other passed, of_decide_eq_true here, segment, found⟩

theorem represents_insert {b : Ptr} (breakpoint : SoftwareBreakpoint)
    (represents : l.Represents bHead) (fresh : l.nodes.get? b = none) :
    ∃ left, l.insert b breakpoint = some left ∧
      left.Represents (insertBreakpoint breakpoint bHead) := by
  obtain ⟨nodes, chain, rfl⟩ := represents
  have allocated (next : Link) : (setNext (l.nodes.set b ⟨breakpoint, none⟩) b next).get? b =
      some ⟨breakpoint, next⟩ := by
    simp only [setNext, Dict.get?_modify, Dict.get?_set, if_true, Option.map_some]
  have same (next : Link) : ∀ q ≠ b,
      (setNext (l.nodes.set b ⟨breakpoint, none⟩) b next).get? q = l.nodes.get? q := by
    intro q other
    simp only [setNext, Dict.get?_modify, Dict.get?_set, if_neg other]
  have inFront : Chain (setNext (l.nodes.set b ⟨breakpoint, none⟩) b l.bHead) (some b)
      ((b, breakpoint) :: nodes) := by
    have nothing : Segment l.nodes l.bHead [] l.bHead := rfl
    exact nothing.insert chain fresh (allocated l.bHead) (same l.bHead)
  cases nodes with
  | nil =>
      have atEnd : l.bHead = none := chain
      rw [atEnd] at inFront
      refine ⟨⟨some b, setNext (l.nodes.set b ⟨breakpoint, none⟩) b none⟩, ?_,
        [(b, breakpoint)], inFront, rfl⟩
      rw [insert, atEnd]
  | cons node rest =>
      obtain ⟨head, first⟩ := node
      obtain ⟨isFirst, next, found, later⟩ := id chain
      have apart : head ≠ b := by
        rintro rfl
        rw [fresh] at found
        cases found
      have there : (l.nodes.set b ⟨breakpoint, none⟩).get? head = some ⟨first, next⟩ := by
        rw [Dict.get?_set, if_neg apart, found]
      rw [insert, isFirst]
      dsimp only
      rw [there]
      simp only [List.map_cons, insertBreakpoint]
      by_cases smaller : first.addr > breakpoint.addr
      · rw [if_pos smaller, if_pos smaller, ← isFirst]
        exact ⟨_, rfl, _, inFront, rfl⟩
      · rw [if_neg smaller, if_neg smaller]
        obtain ⟨before, after, middle, rfl, stopsAt⟩ :=
          Chain.exists_stopsAt later fun next => decide (¬ next.addr < breakpoint.addr)
        have upToHere : Segment l.nodes l.bHead ((head, first) :: before) middle :=
          ⟨isFirst, next, found, stopsAt.segment⟩
        have linked := upToHere.insert stopsAt.chain fresh (allocated middle) (same middle)
        rw [(stopsAt.set_fresh fresh).seek (some head)]
        rw [lastOr_cons] at linked
        obtain ⟨prev, last⟩ := exists_lastOr head before
        rw [last] at linked ⊢
        refine ⟨_, rfl, _, isFirst ▸ linked, ?_⟩
        have below : ∀ entry ∈ before.map Prod.snd, entry.addr < breakpoint.addr := by
          intro entry member
          obtain ⟨node, inside, rfl⟩ := List.mem_map.mp member
          simpa using stopsAt.passed node inside
        have above : ∀ entry ∈ (after.map Prod.snd).head?, ¬ entry.addr < breakpoint.addr := by
          intro entry member
          rw [List.head?_map] at member
          obtain ⟨node, inside, rfl⟩ := Option.map_eq_some_iff.mp member
          simpa using stopsAt.stops node inside
        simp [insertAfter_append below above]

section Calls

variable {g : GlobalState} (represents : l.Represents g.bHead) (w : World K) (address : Nat)

include represents

theorem registerBreakpoint_refines {malloc : Ptr} (fresh : l.nodes.get? malloc = none) :
    ∃ left, l.registerBreakpoint w address malloc =
        some (left, (Cffi.registerBreakpoint g w address).2) ∧
      left.Represents (Cffi.registerBreakpoint g w address).1.bHead := by
  obtain ⟨nodes, chain, same⟩ := id represents
  rcases find_cases chain address with
    ⟨absent, prev, found⟩ | ⟨before, p, b, after, rfl, others, here, -, found⟩
  · rw [same] at absent
    simp only [registerBreakpoint, found, Cffi.registerBreakpoint, absent]
    obtain ⟨left, inserted, entries⟩ := represents_insert
      ⟨address, w.peekdata address, installBreakpoint (w.peekdata address), true, rfl⟩
      represents fresh
    rw [inserted]
    exact ⟨left, rfl, entries⟩
  · rw [List.map_append, List.map_cons] at same
    simp only [registerBreakpoint, found, Cffi.registerBreakpoint, ← same,
      findEntry_append others here]
    refine ⟨_, rfl, _, chain.setValue fun b => { b with enabled := true }, ?_⟩
    rw [List.map_append, List.map_cons, setEnabled_append others here]

theorem unregisterBreakpoint_refines :
    ∃ left, l.unregisterBreakpoint address = some left ∧
      left.Represents (Cffi.unregisterBreakpoint g address).bHead := by
  obtain ⟨nodes, chain, same⟩ := id represents
  rcases find_cases chain address with
    ⟨absent, prev, found⟩ | ⟨before, p, b, after, rfl, others, here, segment, found⟩
  · refine ⟨l, by simp only [unregisterBreakpoint, found], ?_⟩
    have unchanged : removeEntry address g.bHead = g.bHead := by
      rw [same] at absent
      exact removeEntry_of_absent absent
    rw [Cffi.unregisterBreakpoint, unchanged]
    exact represents
  · rw [List.map_append, List.map_cons] at same
    obtain ⟨next, allocated⟩ := chain.get? (List.mem_append_right before List.mem_cons_self)
    have unlinked := chain.unlink segment allocated
    refine ⟨_, by simp only [unregisterBreakpoint, found, allocated]; rfl, _,
      unlinked.erase_other chain.only_once, ?_⟩
    rw [List.map_append, Cffi.unregisterBreakpoint, ← same, removeEntry_append others here]

/-- What switching does, with and without an entry at the address -/
theorem switchBreakpoint_cases (enabled : Bool) (word : SoftwareBreakpoint → Word) :
    (findEntry address g.bHead = none ∧
      l.switchBreakpoint enabled word g.tHead w address = some (l, w)) ∨
    ∃ b, findEntry address g.bHead = some b ∧
      ((g.tHead = [] ∧ l.switchBreakpoint enabled word g.tHead w address = none) ∨
        ∃ t rest left, g.tHead = t :: rest ∧
          l.switchBreakpoint enabled word g.tHead w address =
            some (left, w.pokedata address (word b)) ∧
          left.Represents (setEnabled address enabled g.bHead)) := by
  obtain ⟨nodes, chain, same⟩ := represents
  rcases find_cases chain address with
    ⟨absent, prev, found⟩ | ⟨before, p, b, after, rfl, others, here, -, found⟩
  · rw [same] at absent
    exact .inl ⟨absent, by simp only [switchBreakpoint, found]⟩
  · rw [List.map_append, List.map_cons] at same
    obtain ⟨next, allocated⟩ := chain.get? (List.mem_append_right before List.mem_cons_self)
    rw [← same]
    refine .inr ⟨b, findEntry_append others here, ?_⟩
    cases threads : g.tHead with
    | nil => exact .inl ⟨rfl, by simp only [switchBreakpoint, found, allocated]⟩
    | cons t rest =>
        refine .inr ⟨t, rest, ⟨l.bHead, setValue l.nodes p fun b => { b with enabled }⟩, rfl, ?_, _,
          chain.setValue fun b => { b with enabled }, ?_⟩
        · simp only [switchBreakpoint, found, allocated]
        · rw [List.map_append, List.map_cons, setEnabled_append others here]

/-- Both dereference a null pointer, or neither. -/
def Refines (new : Option (BreakpointList × World K)) (old : Option (GlobalState × World K)) :
    Prop :=
  Option.Rel (fun new old => new.1.Represents old.1.bHead ∧ new.2 = old.2) new old

theorem enableBreakpoint_refines :
    Refines (l.enableBreakpoint g.tHead w address) (Cffi.enableBreakpoint g w address) := by
  rcases switchBreakpoint_cases represents w address true (·.patchedInstruction) with
    ⟨absent, done⟩ | ⟨b, found, ⟨threads, done⟩ | ⟨t, rest, left, threads, done, entries⟩⟩
  · rw [enableBreakpoint, done, Cffi.enableBreakpoint, absent]
    exact .some ⟨represents, rfl⟩
  · rw [enableBreakpoint, done, Cffi.enableBreakpoint, found, threads]
    exact .none
  · rw [enableBreakpoint, done, Cffi.enableBreakpoint, found, threads]
    exact .some ⟨entries, rfl⟩

theorem disableBreakpoint_refines :
    Refines (l.disableBreakpoint g.tHead w address) (Cffi.disableBreakpoint g w address) := by
  rcases switchBreakpoint_cases represents w address false (·.instruction) with
    ⟨absent, done⟩ | ⟨b, found, ⟨threads, done⟩ | ⟨t, rest, left, threads, done, entries⟩⟩
  · rw [disableBreakpoint, done, Cffi.disableBreakpoint, absent]
    exact .some ⟨represents, rfl⟩
  · rw [disableBreakpoint, done, Cffi.disableBreakpoint, found, threads]
    exact .none
  · rw [disableBreakpoint, done, Cffi.disableBreakpoint, found, threads]
    exact .some ⟨entries, rfl⟩

omit w address in
theorem freeBreakpoints_refines :
    ∃ left, l.freeBreakpoints = some left ∧ left.Represents (Cffi.freeBreakpoints g).bHead := by
  obtain ⟨nodes, chain, -⟩ := represents
  obtain ⟨left, freed⟩ := chain.freeAll
  exact ⟨⟨none, left⟩, by rw [freeBreakpoints, freed]; rfl, [], rfl, rfl⟩

end Calls

end BreakpointList

/-! ### The entries as a finite map -/

section Lookup

variable {a address : Nat} {b entry : SoftwareBreakpoint} {bHead : List SoftwareBreakpoint}

/-- No address occurs twice. -/
theorem findEntry_eq_some (increasing : Increasing bHead) :
    findEntry a bHead = some b ↔ b ∈ bHead ∧ b.addr = a := by
  constructor
  · exact findEntry_some
  · rintro ⟨member, rfl⟩
    cases found : findEntry b.addr bHead with
    | none => exact absurd rfl (findEntry_none.mp found b member)
    | some other =>
        obtain ⟨there, same⟩ := findEntry_some found
        have distinct := (increasing_iff.mp increasing).imp Nat.ne_of_lt
        rw [List.inj_on_of_nodup_map distinct there member same]

theorem findEntry_insertBreakpoint (increasing : Increasing bHead)
    (fresh : findEntry b.addr bHead = none) : findEntry a (insertBreakpoint b bHead) =
      if a = b.addr then some b else findEntry a bHead := by
  have sorted := increasing_insertBreakpoint increasing fresh
  ext entry
  rw [findEntry_eq_some sorted, mem_insertBreakpoint]
  split
  · rename_i here
    subst here
    constructor
    · rintro ⟨rfl | old, same⟩
      · rfl
      · exact absurd same (findEntry_none.mp fresh entry old)
    · rintro ⟨⟩
      exact ⟨.inl rfl, rfl⟩
  · rename_i other
    rw [findEntry_eq_some increasing]
    constructor
    · rintro ⟨rfl | old, same⟩
      · exact absurd same.symm other
      · exact ⟨old, same⟩
    · exact fun ⟨old, same⟩ => ⟨.inr old, same⟩

theorem findEntry_setEnabled (enabled : Bool) : findEntry a (setEnabled address enabled bHead) =
    if a = address then (findEntry address bHead).map fun b => { b with enabled }
    else findEntry a bHead := by
  induction bHead with
  | nil => exact (ite_self none).symm
  | cons b rest ih =>
      rw [setEnabled]
      by_cases here : b.addr = address
      · by_cases same : a = address
        · simp [findEntry, here, same]
        · simp [findEntry, here, Ne.symm same, same]
      · by_cases first : b.addr = a
        · have other : a ≠ address := first ▸ here
          simp [findEntry, first, other]
        · rw [if_neg here]
          simpa [findEntry, here, first] using ih

theorem findEntry_removeEntry (increasing : Increasing bHead) :
    findEntry a (removeEntry address bHead) =
      if a = address then none else findEntry a bHead := by
  have removed := tableAt_removeEntry increasing address
  ext entry
  rw [findEntry_eq_some removed.increasing]
  split
  · rename_i here
    subst here
    constructor
    · rintro ⟨member, same⟩
      exact absurd (removed.here entry member same) (Option.some_ne_none _).symm
    · rintro ⟨⟩
  · rename_i other
    rw [findEntry_eq_some increasing]
    constructor
    · rintro ⟨member, rfl⟩
      exact ⟨(removed.others entry other).mp member, rfl⟩
    · rintro ⟨member, rfl⟩
      exact ⟨(removed.others entry other).mpr member, rfl⟩

end Lookup

/-- What the calls describe, whatever the list -/
abbrev BreakpointMap := Nat → Option SoftwareBreakpoint

namespace BreakpointMap

variable (m : BreakpointMap) (address : Nat)

/-- A new address gets an enabled entry with the word in memory; one that is there is enabled. -/
def register (word : Word) : BreakpointMap :=
  Function.update m address <|
    match m address with
    | some b => some { b with enabled := true }
    | none => some
        { addr := address, instruction := word, patchedInstruction := installBreakpoint word,
          enabled := true, patched := rfl }

def remove : BreakpointMap := Function.update m address none

def switch (enabled : Bool) : BreakpointMap :=
  Function.update m address ((m address).map fun b => { b with enabled })

end BreakpointMap

def contents (bHead : List SoftwareBreakpoint) : BreakpointMap := fun address =>
  findEntry address bHead

/-- The list is ordered by address, and its entries are those of the map. -/
def BreakpointList.IsMap (l : BreakpointList) (m : BreakpointMap) : Prop :=
  ∃ bHead, l.Represents bHead ∧ Increasing bHead ∧ contents bHead = m

section Contents

variable {K : Type} {address : Nat} {bHead : List SoftwareBreakpoint}

theorem contents_setEnabled (enabled : Bool) :
    contents (setEnabled address enabled bHead) = (contents bHead).switch address enabled := by
  funext a
  rw [BreakpointMap.switch, Function.update_apply]
  exact findEntry_setEnabled enabled

/-- There is nothing to switch at an address without an entry. -/
theorem switch_of_absent (absent : findEntry address bHead = none) (enabled : Bool) :
    (contents bHead).switch address enabled = contents bHead := by
  have nothing : contents bHead address = none := absent
  rw [BreakpointMap.switch, nothing, Option.map_none, ← nothing, Function.update_eq_self]

theorem contents_removeEntry (increasing : Increasing bHead) :
    contents (removeEntry address bHead) = (contents bHead).remove address := by
  funext a
  rw [BreakpointMap.remove, Function.update_apply]
  exact findEntry_removeEntry increasing

theorem contents_registerBreakpoint {g : GlobalState} (increasing : Increasing g.bHead)
    (w : World K) : contents (registerBreakpoint g w address).1.bHead =
      (contents g.bHead).register address (w.peekdata address) := by
  unfold registerBreakpoint
  split
  · rename_i b found
    have there : contents g.bHead address = some b := found
    rw [contents_setEnabled, BreakpointMap.switch, BreakpointMap.register, there]
    rfl
  · rename_i absent
    have nothing : contents g.bHead address = none := absent
    rw [BreakpointMap.register, nothing]
    funext a
    rw [Function.update_apply]
    exact findEntry_insertBreakpoint increasing absent

end Contents

/-! ### Sequences of calls -/

/-- What the calls work on: the list of breakpoints, and what they read of the rest -/
structure Breakpoints (K : Type) where
  list : BreakpointList
  tHead : List Thread
  w : World K

inductive BreakpointCall (K : Type) where
  /-- `malloc` returns the address if there is a new node -/
  | registerBreakpoint (address : Nat) (malloc : Ptr)
  | unregisterBreakpoint (address : Nat)
  | enableBreakpoint (address : Nat)
  | disableBreakpoint (address : Nat)
  | freeBreakpoints
  /-- the tracee runs, and the tracer does something else -/
  | elsewhere (tHead : List Thread) (w : World K)

variable {K : Type}

/-- `malloc` never returns the address of a node that is in use. -/
def Breakpoints.call (s : Breakpoints K) : BreakpointCall K → Option (Breakpoints K)
  | .registerBreakpoint address malloc =>
      if (s.list.nodes.get? malloc).isNone then
        (s.list.registerBreakpoint s.w address malloc).map fun (list, w) => { s with list, w }
      else none
  | .unregisterBreakpoint address =>
      (s.list.unregisterBreakpoint address).map fun list => { s with list }
  | .enableBreakpoint address =>
      (s.list.enableBreakpoint s.tHead s.w address).map fun (list, w) => { s with list, w }
  | .disableBreakpoint address =>
      (s.list.disableBreakpoint s.tHead s.w address).map fun (list, w) => { s with list, w }
  | .freeBreakpoints => s.list.freeBreakpoints.map fun list => { s with list }
  | .elsewhere tHead w => some { s with tHead, w }

def BreakpointCall.describe (m : BreakpointMap) (w : World K) : BreakpointCall K → BreakpointMap
  | .registerBreakpoint address _ => m.register address (w.peekdata address)
  | .unregisterBreakpoint address => m.remove address
  | .enableBreakpoint address => m.switch address true
  | .disableBreakpoint address => m.switch address false
  | .freeBreakpoints => fun _ => none
  | .elsewhere _ _ => m

/-- The calls on the nodes, and on the map -/
def breakpointCalls : Machine (Breakpoints K × BreakpointMap) (BreakpointCall K) where
  step s call := (s.1.call call).map fun next => (next, call.describe s.2 s.1.w)

/-- `malloc` returns a free address, and a thread is registered where one is needed. -/
def Breakpoints.Admits (s : Breakpoints K) : BreakpointCall K → Prop
  | .registerBreakpoint _ malloc => s.list.nodes.get? malloc = none
  | .enableBreakpoint _ | .disableBreakpoint _ => s.tHead ≠ []
  | _ => True

section Runs

variable {s next : Breakpoints K} {m : BreakpointMap} {call : BreakpointCall K}

namespace BreakpointList.IsMap

variable {l left : BreakpointList} {tHead : List Thread} {w after : World K} {enabled : Bool}
  {word : SoftwareBreakpoint → Word} {address : Nat}

theorem empty : BreakpointList.empty.IsMap fun _ => none :=
  ⟨[], ⟨[], rfl, rfl⟩, List.Pairwise.nil, rfl⟩

theorem switchBreakpoint (isMap : l.IsMap m)
    (switched : l.switchBreakpoint enabled word tHead w address = some (left, after)) :
    left.IsMap (m.switch address enabled) := by
  obtain ⟨bHead, represents, increasing, rfl⟩ := isMap
  rcases BreakpointList.switchBreakpoint_cases (g := { GlobalState.empty with tHead, bHead })
      represents w address enabled word with
    ⟨absent, done⟩ | ⟨b, -, ⟨-, done⟩ | ⟨t, rest, new, -, done, entries⟩⟩
  · cases done.symm.trans switched
    exact ⟨bHead, represents, increasing, (switch_of_absent absent enabled).symm⟩
  · cases done.symm.trans switched
  · cases done.symm.trans switched
    exact ⟨_, entries, increasing_setEnabled enabled increasing, contents_setEnabled enabled⟩

/-- Switching returns where a thread is registered. -/
theorem switchBreakpoint_returns (isMap : l.IsMap m) (registered : tHead ≠ []) :
    (l.switchBreakpoint enabled word tHead w address).isSome := by
  obtain ⟨bHead, represents, -, -⟩ := isMap
  rcases BreakpointList.switchBreakpoint_cases (g := { GlobalState.empty with tHead, bHead })
      represents w address enabled word with
    ⟨-, done⟩ | ⟨b, -, ⟨threads, -⟩ | ⟨t, rest, new, -, done, -⟩⟩
  · exact Option.isSome_of_eq_some done
  · exact absurd threads registered
  · exact Option.isSome_of_eq_some done

end BreakpointList.IsMap

theorem call_isMap (isMap : s.list.IsMap m) (called : s.call call = some next) :
    next.list.IsMap (call.describe m s.w) := by
  obtain ⟨bHead, represents, increasing, same⟩ := id isMap
  set g : GlobalState := { GlobalState.empty with tHead := s.tHead, bHead }
  cases call with
  | registerBreakpoint address malloc =>
      subst same
      rw [Breakpoints.call] at called
      split at called
      · rename_i free
        obtain ⟨left, registered, entries⟩ := BreakpointList.registerBreakpoint_refines (g := g)
          represents s.w address (Option.isNone_iff_eq_none.mp free)
        rw [registered] at called
        cases called
        exact ⟨_, entries, (tableAt_registerBreakpoint (g := g) increasing s.w address).increasing,
          contents_registerBreakpoint (g := g) increasing s.w⟩
      · cases called
  | unregisterBreakpoint address =>
      subst same
      obtain ⟨left, unregistered, entries⟩ :=
        BreakpointList.unregisterBreakpoint_refines (g := g) represents address
      rw [Breakpoints.call, unregistered] at called
      cases called
      exact ⟨_, entries, (tableAt_removeEntry increasing address).increasing,
        contents_removeEntry increasing⟩
  | enableBreakpoint address | disableBreakpoint address =>
      obtain ⟨⟨left, w⟩, switched, rfl⟩ := Option.map_eq_some_iff.mp called
      exact isMap.switchBreakpoint switched
  | freeBreakpoints =>
      obtain ⟨left, freed, entries⟩ :=
        BreakpointList.freeBreakpoints_refines (g := g) represents
      rw [Breakpoints.call, freed] at called
      cases called
      exact ⟨[], entries, List.Pairwise.nil, rfl⟩
  | elsewhere tHead w =>
      cases called
      exact isMap

/-- No loop along the list is endless, and no pointer to a freed node is followed. -/
theorem call_returns (isMap : s.list.IsMap m) (admits : s.Admits call) :
    (s.call call).isSome := by
  obtain ⟨bHead, represents, -, -⟩ := id isMap
  set g : GlobalState := { GlobalState.empty with tHead := s.tHead, bHead }
  cases call with
  | registerBreakpoint address malloc =>
      obtain ⟨left, registered, -⟩ := BreakpointList.registerBreakpoint_refines (g := g)
        represents s.w address admits
      rw [Breakpoints.call, if_pos (Option.isNone_iff_eq_none.mpr admits), registered]
      rfl
  | unregisterBreakpoint address =>
      obtain ⟨left, unregistered, -⟩ :=
        BreakpointList.unregisterBreakpoint_refines (g := g) represents address
      rw [Breakpoints.call, unregistered]
      rfl
  | enableBreakpoint address | disableBreakpoint address =>
      rw [Breakpoints.call, Option.isSome_map]
      exact isMap.switchBreakpoint_returns admits
  | freeBreakpoints =>
      obtain ⟨left, freed, -⟩ := BreakpointList.freeBreakpoints_refines (g := g) represents
      rw [Breakpoints.call, freed]
      rfl
  | elsewhere tHead w => rfl

/-- **The breakpoint list** is an ordered finite map: whatever is called, its addresses increase
strictly, its entries are those that the calls describe, and the next call returns. -/
theorem b_head_ordered_map {tHead : List Thread} {w : World K} {calls : List (BreakpointCall K)}
    (reached : breakpointCalls.run (⟨.empty, tHead, w⟩, fun _ => none) calls = some (s, m)) :
    s.list.IsMap m ∧ ∀ call, s.Admits call → (s.call call).isSome := by
  have isMap : s.list.IsMap m :=
    Machine.run_invariant (motive := fun pair => pair.1.list.IsMap pair.2)
      (fun pair call next isMap _ stepped => by
        obtain ⟨left, called, rfl⟩ := Option.map_eq_some_iff.mp stepped
        exact call_isMap isMap called)
      BreakpointList.IsMap.empty Machine.meets_always reached
  exact ⟨isMap, fun call => call_returns isMap⟩

end Runs

/-- Breakpoints before, between and after others, taken out at each of these places -/
def mixedCalls : List (BreakpointCall Script) :=
  [.registerBreakpoint 0x2000 7, .registerBreakpoint 0x1000 3, .registerBreakpoint 0x4000 9,
    .registerBreakpoint 0x3000 1, .disableBreakpoint 0x3000, .registerBreakpoint 0x3000 2,
    .unregisterBreakpoint 0x2000, .registerBreakpoint 0x2800 7, .unregisterBreakpoint 0x1000,
    .unregisterBreakpoint 0x4000]

theorem mixedCalls_ordered_map : ∃ s m, breakpointCalls.run
    (⟨.empty, [⟨1, 0, 0⟩], .nops { registers := fun _ => none }⟩, fun _ => none) mixedCalls =
      some (s, m) ∧ s.list.IsMap m ∧ ∀ call, s.Admits call → (s.call call).isSome := by
  obtain ⟨⟨s, m⟩, reached⟩ : ∃ pair, breakpointCalls.run
      (⟨.empty, [⟨1, 0, 0⟩], .nops { registers := fun _ => none }⟩, fun _ => none) mixedCalls =
        some pair := Option.isSome_iff_exists.mp (by decide +kernel)
  exact ⟨s, m, reached, b_head_ordered_map reached⟩

end Libdebug.Cffi
