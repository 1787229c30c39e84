import Libdebug.Cffi.Wait
import Libdebug.Foundation.Linked
import Libdebug.Foundation.Runs

/-!
`t_HEAD` and `dead_t_HEAD` as linked lists of nodes. A new thread is put in front, one that is known
is found, and one that is gone is taken out at its place and put in front of the dead ones: so the
registered threads are in the reverse order of their registration. The functions on nodes refine
those on the lists of threads, whose register files are the ones that the nodes embed.
-/

namespace Libdebug.Cffi

open Libdebug.Foundation Libdebug.Foundation.Linked

/-! ### The functions on nodes -/

/-- `struct thread`, but for the link -/
structure ThreadNode where
  tid : Int
  regs : UserRegs
  signalToForward : Nat

/-- The heads of the lists of threads, and the nodes that are allocated -/
structure ThreadList where
  tHead : Link
  deadTHead : Link
  nodes : Cells ThreadNode

namespace ThreadList

def empty : ThreadList := ⟨none, none, .empty⟩

variable {K : Type} (k : Kernel K) (l : ThreadList)

/-- The loop that looks for a thread -/
def find (tid : Int) : Option Cursor :=
  seek (fun t => t.tid = tid) l.nodes ⟨none, l.tHead⟩

/-- The result is the address of the register file, which is that of the node. What `malloc` has
returned holds `junk`, until the registers are read. -/
def registerThread (w : World K) (tid : Int) (malloc : Ptr) (junk : UserRegs) :
    Option (Ptr × ThreadList) :=
  match l.find tid with
  | none => none
  | some ⟨_, some t⟩ => some (t, l)
  | some ⟨_, none⟩ =>
      let t : ThreadNode :=
        { tid, signalToForward := 0, regs := (k.getregs w.os tid).getD junk }
      some (malloc, { l with tHead := some malloc, nodes := l.nodes.set malloc ⟨t, l.tHead⟩ })

def unregisterThread (tid : Int) : Option ThreadList :=
  match l.find tid with
  | none => none
  | some ⟨_, none⟩ => some l
  | some ⟨prev, some t⟩ =>
      match l.nodes.get? t with
      | none => none
      | some node =>
          let (tHead, nodes) := redirect l.tHead l.nodes prev node.next
          -- the thread is added to the dead list
          some { tHead, nodes := setNext nodes t l.deadTHead, deadTHead := some t }

/-- The nodes of both lists, in link order -/
structure Holds (nodes dead : List (Nat × ThreadNode)) : Prop where
  live : Chain l.nodes l.tHead nodes
  ended : Chain l.nodes l.deadTHead dead
  apart : List.Disjoint (addresses nodes) (addresses dead)

end ThreadList

/-- The ids of the threads of some nodes -/
abbrev tidsOf (nodes : List (Nat × ThreadNode)) : List Int := nodes.map (·.2.tid)

/-! ### What they do to the lists -/

namespace ThreadList

variable {K : Type} {k : Kernel K} {l : ThreadList} {nodes dead : List (Nat × ThreadNode)}

theorem empty_holds : empty.Holds [] [] := ⟨rfl, rfl, List.disjoint_nil_left _⟩

/-- The loop ends at the node of the thread, or past the last one. -/
theorem find_cases (chain : Chain l.nodes l.tHead nodes) (tid : Int) :
    (tid ∉ tidsOf nodes ∧ ∃ prev, l.find tid = some ⟨prev, none⟩) ∨
    ∃ before p t after, nodes = before ++ (p, t) :: after ∧ tid ∉ tidsOf before ∧ t.tid = tid ∧
      Segment l.nodes l.tHead before (some p) ∧
      l.find tid = some ⟨lastOr none before, some p⟩ := by
  have other : ∀ {nodes : List (Nat × ThreadNode)},
      (∀ node ∈ nodes, decide (node.2.tid = tid) = false) → tid ∉ tidsOf nodes := by
    intro nodes passed member
    obtain ⟨node, there, same⟩ := List.mem_map.mp member
    exact of_decide_eq_false (passed node there) same
  rcases chain.seek_cases fun t => decide (t.tid = tid) with
    ⟨passed, prev, found⟩ | ⟨before, p, t, after, rfl, passed, here, segment, found⟩
  · exact .inl ⟨other passed, prev, found⟩
  · exact .inr ⟨before, p, t, after, rfl, other passed, of_decide_eq_true here, segment, found⟩

variable (holds : l.Holds nodes dead)

include holds

/-- A thread that is known is left where it is; a new one is put in front. -/
theorem registerThread_cases (w : World K) (tid : Int) {malloc : Ptr} (junk : UserRegs)
    (fresh : l.nodes.get? malloc = none) :
    (∃ before p t after, nodes = before ++ (p, t) :: after ∧ tid ∉ tidsOf before ∧ t.tid = tid ∧
      l.registerThread k w tid malloc junk = some (p, l)) ∨
    (tid ∉ tidsOf nodes ∧ ∃ left,
      l.registerThread k w tid malloc junk = some (malloc, left) ∧
      left.Holds ((malloc, ⟨tid, (k.getregs w.os tid).getD junk, 0⟩) :: nodes) dead) := by
  rcases find_cases holds.live tid with
    ⟨absent, prev, found⟩ | ⟨before, p, t, after, rfl, others, here, -, found⟩
  · refine .inr ⟨absent, _, by simp only [registerThread, found]; rfl, ?_⟩
    have unused : ∀ {nodes head}, Chain l.nodes head nodes → malloc ∉ addresses nodes :=
      fun chain member => Dict.get?_eq_none.mp fresh (chain.mem_keys member)
    constructor
    · exact ⟨rfl, l.tHead, by rw [Dict.get?_set, if_pos rfl], holds.live.set_fresh fresh⟩
    · exact holds.ended.set_fresh fresh
    · rw [addresses_cons, List.disjoint_cons_left]
      exact ⟨unused holds.ended, holds.apart⟩
  · exact .inl ⟨before, p, t, after, rfl, others, here, by simp only [registerThread, found]⟩

/-- A thread that is known is taken out, and is the first of the dead ones. -/
theorem unregisterThread_cases (tid : Int) :
    (tid ∉ tidsOf nodes ∧ l.unregisterThread tid = some l) ∨
    ∃ before p t after left, nodes = before ++ (p, t) :: after ∧ tid ∉ tidsOf before ∧
      t.tid = tid ∧ l.unregisterThread tid = some left ∧
      left.Holds (before ++ after) ((p, t) :: dead) := by
  rcases find_cases holds.live tid with
    ⟨absent, prev, found⟩ | ⟨before, p, t, after, rfl, others, here, segment, found⟩
  · exact .inl ⟨absent, by simp only [unregisterThread, found]⟩
  · obtain ⟨next, allocated⟩ := holds.live.get? (List.mem_append_right before List.mem_cons_self)
    have unlinked := holds.live.unlink segment allocated
    have gone := holds.live.only_once
    have listed : p ∈ addresses (before ++ (p, t) :: after) := by simp
    have alive : p ∉ addresses dead := fun member => holds.apart listed member
    refine .inr ⟨before, p, t, after, _, rfl, others, here,
      by simp only [unregisterThread, found, allocated]; rfl, ?_, ?_, ?_⟩
    · exact unlinked.setNext_other gone
    · have kept : (redirect l.tHead l.nodes (lastOr none before) next).2.get? p =
          some ⟨t, next⟩ := by
        rw [get?_redirect, allocated]
        rw [addresses_append] at gone
        exact fun member => gone (List.mem_append_left _ member)
      refine ⟨rfl, l.deadTHead, ?_, ?_⟩
      · rw [setNext, Dict.get?_modify, if_pos rfl, kept]
        rfl
      · refine Segment.setNext_other (holds.ended.congr fun q member => ?_) alive
        refine get?_redirect fun earlier => ?_
        exact holds.apart (by simp [earlier]) member
    · rw [addresses_cons, List.disjoint_cons_right]
      refine ⟨gone, fun q member later => holds.apart ?_ later⟩
      rw [addresses_append, List.mem_append] at member ⊢
      exact member.imp_right (List.mem_cons_of_mem p)

end ThreadList

/-- A node, as a thread of the lists -/
def thread (node : Nat × ThreadNode) : Thread := ⟨node.2.tid, node.1, node.2.signalToForward⟩

/-! ### The nodes refine the threads -/

/-- The lists of threads are those of the nodes, and the files are embedded in them. -/
structure ThreadList.Shows (l : ThreadList) (nodes dead : List (Nat × ThreadNode))
    (g : GlobalState) : Prop where
  holds : l.Holds nodes dead
  tHead : g.tHead = nodes.map thread
  deadTHead : g.deadTHead = dead.map thread
  files : ∀ node ∈ nodes ++ dead, g.files node.1 = node.2.regs

def ThreadList.Represents (l : ThreadList) (g : GlobalState) : Prop :=
  ∃ nodes dead, l.Shows nodes dead g

namespace ThreadList

variable {K : Type} {k : Kernel K} {l : ThreadList} {g : GlobalState}
  {nodes dead before after : List (Nat × ThreadNode)} {tid : Int} {p : Nat} {t : ThreadNode}

theorem find?_absent (absent : tid ∉ tidsOf nodes) :
    (nodes.map thread).find? (·.tid = tid) = none := by
  rw [List.find?_eq_none]
  intro entry member same
  obtain ⟨node, there, rfl⟩ := List.mem_map.mp member
  exact absent (List.mem_map.mpr ⟨node, there, of_decide_eq_true same⟩)

theorem find?_present (p : Nat) (after : List (Nat × ThreadNode))
    (others : tid ∉ tidsOf before) (here : t.tid = tid) :
    ((before ++ (p, t) :: after).map thread).find? (·.tid = tid) = some (thread (p, t)) := by
  rw [List.map_append, List.find?_append, find?_absent others, List.map_cons]
  simp [thread, here]

theorem deadTHead_getregs (w : World K) (file : Ptr) :
    (g.getregs k w tid file).deadTHead = g.deadTHead := by
  unfold GlobalState.getregs
  split <;> rfl

theorem files_getregs (w : World K) (file q : Ptr) : (g.getregs k w tid file).files q =
    if q = file then (k.getregs w.os tid).getD (g.files file) else g.files q := by
  unfold GlobalState.getregs
  cases k.getregs w.os tid with
  | none =>
      by_cases same : q = file
      · rw [if_pos same, same]
        rfl
      · exact (if_neg same).symm
  | some regs => exact Function.update_apply ..

theorem registerThread_refines (represents : l.Represents g) (w : World K) (tid : Int)
    (free : l.nodes.get? g.fresh = none) :
    ∃ left, l.registerThread k w tid g.fresh (g.files g.fresh) =
        some ((Cffi.registerThread k g w tid).1, left) ∧
      left.Represents (Cffi.registerThread k g w tid).2 := by
  obtain ⟨nodes, dead, shows⟩ := id represents
  rcases registerThread_cases (k := k) shows.holds w tid (g.files g.fresh) free with
    ⟨before, p, t, after, rfl, others, here, done⟩ | ⟨absent, left, done, holds⟩
  · have found := find?_present p after others here
    rw [← shows.tHead] at found
    refine ⟨l, ?_, ?_⟩
    · simp only [done, Cffi.registerThread, found]
      rfl
    · simp only [Cffi.registerThread, found]
      exact represents
  · have missing := find?_absent absent
    rw [← shows.tHead] at missing
    have registered : Cffi.registerThread k g w tid =
        (g.fresh, { g.getregs k w tid g.fresh with
          tHead := ⟨tid, g.fresh, 0⟩ :: g.tHead, fresh := g.fresh + 1 }) := by
      simp only [Cffi.registerThread, missing, GlobalState.getregs_tHead,
        GlobalState.getregs_fresh]
    rw [done, registered]
    refine ⟨left, rfl, _, dead, holds, ?_, ?_, ?_⟩
    · rw [shows.tHead]
      rfl
    · exact (deadTHead_getregs ..).trans shows.deadTHead
    · intro node member
      rw [List.cons_append, List.mem_cons] at member
      rcases member with rfl | old
      · exact (files_getregs ..).trans (if_pos rfl)
      · have other : node.1 ≠ g.fresh := by
          intro same
          have used : node.1 ∈ l.nodes.keys := by
            rcases List.mem_append.mp old with live | ended
            · exact shows.holds.live.mem_keys (List.mem_map_of_mem live)
            · exact shows.holds.ended.mem_keys (List.mem_map_of_mem ended)
          exact Dict.get?_eq_none.mp free (same ▸ used)
        exact ((files_getregs ..).trans (if_neg other)).trans (shows.files node old)

theorem unregisterThread_refines (represents : l.Represents g) (tid : Int) :
    ∃ left, l.unregisterThread tid = some left ∧
      left.Represents (Cffi.unregisterThread g tid) := by
  obtain ⟨nodes, dead, shows⟩ := id represents
  rcases unregisterThread_cases shows.holds tid with
    ⟨absent, done⟩ | ⟨before, p, t, after, left, rfl, others, here, done, holds⟩
  · have missing := find?_absent absent
    rw [← shows.tHead] at missing
    refine ⟨l, done, ?_⟩
    simp only [Cffi.unregisterThread, missing]
    exact represents
  · have found := find?_present p after others here
    rw [← shows.tHead] at found
    refine ⟨left, done, _, _, holds, ?_, ?_, ?_⟩
    · simp only [Cffi.unregisterThread, found]
      rw [shows.tHead, List.map_append, List.map_append, List.map_cons]
      rw [List.erase_append_right, List.erase_cons_head]
      intro member
      obtain ⟨node, there, same⟩ := List.mem_map.mp member
      have equal : node.2.tid = t.tid := congrArg Thread.tid same
      exact others (List.mem_map.mpr ⟨node, there, equal.trans here⟩)
    · simp only [Cffi.unregisterThread, found, shows.deadTHead]
      rfl
    · simp only [Cffi.unregisterThread, found]
      intro node member
      apply shows.files
      simp only [List.mem_append, List.mem_cons] at member ⊢
      tauto

end ThreadList

/-! ### The order of registration -/

/-- What is called, and the world that a call finds -/
inductive ThreadCall (K : Type) where
  /-- `malloc` returns the address, with whatever is there, if there is a new node -/
  | registerThread (tid : Int) (malloc : Ptr) (junk : UserRegs)
  | unregisterThread (tid : Int)
  /-- the tracee runs, and the tracer does something else -/
  | elsewhere (w : World K)

structure Threads (K : Type) where
  list : ThreadList
  w : World K

section Order

variable {K : Type}

/-- `malloc` never returns the address of a node that is in use. -/
def Threads.call (k : Kernel K) (s : Threads K) : ThreadCall K → Option (Threads K)
  | .registerThread tid malloc junk =>
      if (s.list.nodes.get? malloc).isNone then
        (s.list.registerThread k s.w tid malloc junk).map fun (_, list) => { s with list }
      else none
  | .unregisterThread tid => (s.list.unregisterThread tid).map fun list => { s with list }
  | .elsewhere w => some { s with w }

def threadCalls (k : Kernel K) : Machine (Threads K) (ThreadCall K) := ⟨Threads.call k⟩

/-- The registered threads after a call, the oldest one first -/
def ThreadCall.enroll (order : List Int) : ThreadCall K → List Int
  | .registerThread tid _ _ => if tid ∈ order then order else order ++ [tid]
  | .unregisterThread tid => order.erase tid
  | .elsewhere _ => order

/-- The nodes are in the reverse order of registration, each thread once. -/
def ThreadList.InOrder (l : ThreadList) (order : List Int) : Prop :=
  order.Nodup ∧ ∃ nodes dead, l.Holds nodes dead ∧ tidsOf nodes = order.reverse

variable {k : Kernel K} {s next final : Threads K} {call : ThreadCall K}
  {calls : List (ThreadCall K)} {order : List Int} {main : Int}

theorem inOrder_empty : ThreadList.empty.InOrder [] :=
  ⟨List.nodup_nil, [], [], ThreadList.empty_holds, rfl⟩

theorem call_inOrder (inOrder : s.list.InOrder order) (called : s.call k call = some next) :
    next.list.InOrder (call.enroll order) := by
  obtain ⟨distinct, nodes, dead, holds, tids⟩ := id inOrder
  have listed : ∀ tid, tid ∈ tidsOf nodes ↔ tid ∈ order := by
    intro tid
    rw [tids, List.mem_reverse]
  cases call with
  | registerThread tid malloc junk =>
      rw [Threads.call] at called
      split at called
      · rename_i free
        rcases ThreadList.registerThread_cases (k := k) holds s.w tid junk
            (Option.isNone_iff_eq_none.mp free) with
          ⟨before, p, t, after, rfl, -, rfl, done⟩ | ⟨absent, left, done, kept⟩
        · rw [done] at called
          cases called
          have known : t.tid ∈ order := (listed t.tid).mp (by simp [tidsOf])
          rw [ThreadCall.enroll, if_pos known]
          exact inOrder
        · rw [done] at called
          cases called
          have new : tid ∉ order := mt (listed tid).mpr absent
          rw [ThreadCall.enroll, if_neg new]
          refine ⟨?_, _, dead, kept, ?_⟩
          · exact List.nodup_append.mpr ⟨distinct, List.nodup_singleton tid, fun a old b last =>
              fun same => new (List.mem_singleton.mp last ▸ same ▸ old)⟩
          · rw [tidsOf, List.map_cons, List.reverse_append, List.reverse_singleton]
            exact congrArg (tid :: ·) tids
      · cases called
  | unregisterThread tid =>
      obtain ⟨left, unregistered, rfl⟩ := Option.map_eq_some_iff.mp called
      rcases ThreadList.unregisterThread_cases holds tid with
        ⟨absent, done⟩ | ⟨before, p, t, after, left', rfl, others, rfl, done, kept⟩
      · rw [done] at unregistered
        cases unregistered
        rw [ThreadCall.enroll, List.erase_of_not_mem (mt (listed tid).mpr absent)]
        exact inOrder
      · rw [done] at unregistered
        cases unregistered
        refine ⟨distinct.erase t.tid, _, _, kept, ?_⟩
        have placed : order = (tidsOf after).reverse ++ t.tid :: (tidsOf before).reverse := by
          rw [← List.reverse_reverse order, ← tids]
          simp [tidsOf]
        have apart : t.tid ∉ (tidsOf after).reverse := by
          rw [placed, List.nodup_middle, List.nodup_cons, List.mem_append, not_or] at distinct
          exact distinct.1.1
        rw [ThreadCall.enroll, placed, List.erase_append_right _ apart, List.erase_cons_head]
        simp [tidsOf]
  | elsewhere w =>
      cases called
      exact inOrder

theorem run_inOrder (inOrder : s.list.InOrder order)
    (reached : (threadCalls k).run s calls = some final) :
    final.list.InOrder (calls.foldl ThreadCall.enroll order) := by
  induction calls generalizing s order with
  | nil =>
      cases reached
      exact inOrder
  | cons call rest ih =>
      obtain ⟨next, called, later⟩ := Option.bind_eq_some_iff.mp reached
      exact ih (call_inOrder inOrder called) later

/-- The thread that was registered first stays so until it is unregistered. -/
theorem head?_enroll (first : order.head? = some main)
    (kept : call ≠ .unregisterThread main) : (call.enroll order).head? = some main := by
  obtain ⟨rest, rfl⟩ : ∃ rest, order = main :: rest := by
    cases order with
    | nil => cases first
    | cons head rest =>
        cases first
        exact ⟨rest, rfl⟩
  cases call with
  | registerThread tid malloc junk =>
      rw [ThreadCall.enroll]
      split <;> rfl
  | unregisterThread tid =>
      have other : main ≠ tid := by
        rintro rfl
        exact kept rfl
      rw [ThreadCall.enroll, List.erase_cons_tail (by simpa using other)]
      rfl
  | elsewhere w => rfl

theorem head?_foldl_enroll (first : order.head? = some main)
    (kept : ThreadCall.unregisterThread main ∉ calls) :
    (calls.foldl ThreadCall.enroll order).head? = some main := by
  induction calls generalizing order with
  | nil => exact first
  | cons call rest ih =>
      rw [List.mem_cons, not_or] at kept
      exact ih (head?_enroll first (Ne.symm kept.1)) kept.2

/-- `malloc` returns a free address. -/
def Threads.Admits (s : Threads K) : ThreadCall K → Prop
  | .registerThread _ malloc _ => s.list.nodes.get? malloc = none
  | _ => True

/-- No loop along the list is endless, and no pointer leads nowhere. -/
theorem Threads.call_returns (inOrder : s.list.InOrder order) (admits : s.Admits call) :
    (s.call k call).isSome := by
  obtain ⟨-, nodes, dead, holds, -⟩ := inOrder
  cases call with
  | registerThread tid malloc junk =>
      rw [Threads.call, if_pos (Option.isNone_iff_eq_none.mpr admits), Option.isSome_map]
      rcases ThreadList.registerThread_cases (k := k) holds s.w tid junk admits with
        ⟨_, _, _, _, -, -, -, done⟩ | ⟨-, left, done, -⟩
      · exact Option.isSome_of_eq_some done
      · exact Option.isSome_of_eq_some done
  | unregisterThread tid =>
      rw [Threads.call, Option.isSome_map]
      rcases ThreadList.unregisterThread_cases holds tid with
        ⟨-, done⟩ | ⟨_, _, _, _, left, -, -, -, done, -⟩
      · exact Option.isSome_of_eq_some done
      · exact Option.isSome_of_eq_some done
  | elsewhere w => rfl

end Order

end Libdebug.Cffi
