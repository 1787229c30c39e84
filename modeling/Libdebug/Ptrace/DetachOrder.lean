import Libdebug.Cffi.ThreadList
import Libdebug.Ptrace.GdbReturn
import Libdebug.Ptrace.Detach

/-!
The functions that detach from all threads, or attach to them again, go along `t_HEAD`, and with
every thread they are done before they come to the next one. The order is important: the main
thread must be the last one. No function sees to it; it follows from where a new thread is put, and
from the main thread being registered first.
-/

namespace Libdebug.Ptrace.DetachOrder

open Libdebug.Foundation Libdebug.Foundation.Linked Libdebug.Cffi

/-! ### The functions of the C layer, on nodes -/

/-- What is asked of the kernel for a thread -/
inductive Request where
  | getregs | setregs | attach | detach | waitpid
  | tgkill (signal : Nat)
  deriving DecidableEq

variable {K : Type}

/-- The world, and the requests with the threads they are for, the oldest one first -/
structure Requests (K : Type) where
  w : World K
  made : List (Request × Int)

section Functions

variable (k : Kernel K) (r : Release K) (attach : K → Int → K) (pid tid : Int) (s : Requests K)

def Requests.note (request : Request) : Requests K :=
  { s with made := s.made ++ [(request, tid)] }

def tgkillThread (signal : Nat) : Requests K :=
  { s with w := s.w.tgkill k pid tid signal }.note tid (.tgkill signal)

/-- The status is not looked at. -/
def waitThread : Requests K :=
  let (_, mem, os) := k.waitpid s.w.mem s.w.os (.thread tid) false
  { s with w := { s.w with mem, os } }.note tid .waitpid

/-- That it failed is only printed. -/
def detachThread : Requests K :=
  let (mem, os) := r.detach s.w.mem s.w.os tid
  { s with w := { s.w with mem, os } }.note tid .detach

/-- The body of the loop of `ptrace_detach_for_kill` -/
def killTurn (_ : Ptr) (t : ThreadNode) (s : Requests K) : ThreadNode × Requests K :=
  let asked := s.note t.tid .getregs
  let (t, s) :=
    match k.getregs s.w.os t.tid with
    | some regs => ({ t with regs }, asked)
    | none => (t, waitThread k t.tid (tgkillThread k pid t.tid asked SIGSTOP))
  (t, tgkillThread k pid t.tid (detachThread r t.tid s) SIGKILL)

def ptraceDetachForKill (l : ThreadList) (w : World K) : Option (ThreadList × Requests K) :=
  (each (killTurn k r pid) l.tHead l.nodes ⟨w, []⟩).map fun (nodes, s) =>
    ({ l with nodes }, waitThread k pid s)

/-- The body of the loop of `ptrace_detach_for_migration` -/
def migrationTurn (_ : Ptr) (t : ThreadNode) (s : Requests K) : ThreadNode × Requests K :=
  let asked := s.note t.tid .setregs
  let s :=
    match k.setregs s.w.os t.tid t.regs with
    | some os => { asked with w := { s.w with os } }
    | none =>
        let s := waitThread k t.tid (tgkillThread k pid t.tid asked SIGSTOP)
        { s with w := s.w.setregs k t.tid t.regs }.note t.tid .setregs
  (t, detachThread r t.tid (tgkillThread k pid t.tid s SIGSTOP))

def ptraceDetachForMigration (l : ThreadList) (w : World K) : Option (ThreadList × Requests K) :=
  (each (migrationTurn k r pid) l.tHead l.nodes ⟨w, []⟩).map fun (nodes, s) => ({ l with nodes }, s)

/-- The body of the loop of `ptrace_reattach_from_gdb`; that a request failed is only printed. -/
def reattachTurn (_ : Ptr) (t : ThreadNode) (s : Requests K) : ThreadNode × Requests K :=
  let s := { s with w := { s.w with os := attach s.w.os t.tid } }.note t.tid .attach
  ({ t with regs := (k.getregs s.w.os t.tid).getD t.regs }, s.note t.tid .getregs)

def ptraceReattachFromGdb (l : ThreadList) (w : World K) : Option (ThreadList × Requests K) :=
  (each (reattachTurn k attach) l.tHead l.nodes ⟨w, []⟩).map fun (nodes, s) => ({ l with nodes }, s)

end Functions

/-! ### One turn -/

/-- A turn makes requests for the thread of its node only, and the given one once. -/
structure Serves (request : Request)
    (turn : Ptr → ThreadNode → Requests K → ThreadNode × Requests K) : Prop where
  tid : ∀ p t s, (turn p t s).1.tid = t.tid
  made : ∀ p t s, ∃ made, (turn p t s).2.made = s.made ++ made ∧
    (∀ asked ∈ made, asked.2 = t.tid) ∧ made.filter (·.1 = request) = [(request, t.tid)]

section Turns

variable {k : Kernel K} {r : Release K} {attach : K → Int → K} {pid tid : Int} {s : Requests K}

@[simp] theorem made_note (request : Request) :
    (s.note tid request).made = s.made ++ [(request, tid)] := rfl

@[simp] theorem made_tgkillThread (signal : Nat) :
    (tgkillThread k pid tid s signal).made = s.made ++ [(.tgkill signal, tid)] := rfl

@[simp] theorem made_waitThread : (waitThread k tid s).made = s.made ++ [(.waitpid, tid)] := rfl

@[simp] theorem made_detachThread : (detachThread r tid s).made = s.made ++ [(.detach, tid)] := rfl

theorem killTurn_serves : Serves .detach (killTurn k r pid) where
  tid p t s := by
    unfold killTurn
    cases k.getregs s.w.os t.tid <;> rfl
  made p t s := by
    unfold killTurn
    cases k.getregs s.w.os t.tid with
    | some regs =>
        exact ⟨[(.getregs, t.tid), (.detach, t.tid), (.tgkill SIGKILL, t.tid)], by simp, by simp,
          rfl⟩
    | none =>
        exact ⟨[(.getregs, t.tid), (.tgkill SIGSTOP, t.tid), (.waitpid, t.tid), (.detach, t.tid),
          (.tgkill SIGKILL, t.tid)], by simp, by simp, rfl⟩

theorem migrationTurn_serves : Serves .detach (migrationTurn k r pid) where
  tid _ _ _ := rfl
  made p t s := by
    unfold migrationTurn
    cases k.setregs s.w.os t.tid t.regs with
    | some os =>
        exact ⟨[(.setregs, t.tid), (.tgkill SIGSTOP, t.tid), (.detach, t.tid)], by simp, by simp,
          rfl⟩
    | none =>
        exact ⟨[(.setregs, t.tid), (.tgkill SIGSTOP, t.tid), (.waitpid, t.tid), (.setregs, t.tid),
          (.tgkill SIGSTOP, t.tid), (.detach, t.tid)], by simp, by simp, rfl⟩

theorem reattachTurn_serves : Serves .attach (reattachTurn k attach) where
  tid _ _ _ := rfl
  made p t s :=
    ⟨[(.attach, t.tid), (.getregs, t.tid)], by simp [reattachTurn], by simp, rfl⟩

end Turns

/-! ### All turns -/

section Loops

variable {request : Request} {turn : Ptr → ThreadNode → Requests K → ThreadNode × Requests K}
  {nodes : List (Nat × ThreadNode)} {main : Int}

/-- The requests of a loop are for the threads on its way, and come to each in link order. -/
theorem Serves.visit (serves : Serves request turn) (nodes : List (Nat × ThreadNode))
    (s : Requests K) : ∃ made, (Linked.visit turn nodes s).2.made = s.made ++ made ∧
      (∀ asked ∈ made, asked.2 ∈ tidsOf nodes) ∧
      (made.filter (·.1 = request)).map Prod.snd = tidsOf nodes := by
  induction nodes generalizing s with
  | nil => exact ⟨[], (List.append_nil _).symm, by simp, rfl⟩
  | cons node rest ih =>
      obtain ⟨first, asked, own, once⟩ := serves.made node.1 node.2 s
      obtain ⟨later, more, among, each⟩ := ih (turn node.1 node.2 s).2
      refine ⟨first ++ later, ?_, ?_, ?_⟩
      · rw [← List.append_assoc, ← asked, ← more]
        rfl
      · intro entry member
        rcases List.mem_append.mp member with here | below
        · exact List.mem_cons.mpr (.inl (own entry here))
        · exact List.mem_cons_of_mem _ (among entry below)
      · rw [List.filter_append, once, List.map_append, each]
        rfl

/-- The loop returns, the request comes to the threads in the given order, and everything that is
asked for the main thread comes after all the rest. -/
def TreatsLast (main : Int) (request : Request) (order : List Int) (atEnd : List (Request × Int))
    (result : Option (ThreadList × Requests K)) : Prop :=
  ∃ left s others own, result = some (left, s) ∧ s.made = others ++ own ++ atEnd ∧
    (∀ asked ∈ others, asked.2 ≠ main) ∧ (∀ asked ∈ own, asked.2 = main) ∧
    (s.made.filter (·.1 = request)).map Prod.snd = order

theorem Serves.treatsLast {l : ThreadList} (serves : Serves request turn)
    (chain : Chain l.nodes l.tHead nodes) (distinct : (tidsOf nodes).Nodup)
    (last : (tidsOf nodes).getLast? = some main) (w : World K) {finish : Requests K → Requests K}
    {atEnd : List (Request × Int)} (finished : ∀ s, (finish s).made = s.made ++ atEnd)
    (unlike : atEnd.filter (·.1 = request) = []) :
    TreatsLast main request (tidsOf nodes) atEnd
      ((each turn l.tHead l.nodes ⟨w, []⟩).map fun (nodes, s) => ({ l with nodes }, finish s)) := by
  obtain ⟨left, returned, -⟩ := chain.each turn ⟨w, []⟩
  obtain ⟨made, all, -, order⟩ := serves.visit nodes ⟨w, []⟩
  rw [List.getLast?_map] at last
  obtain ⟨node, isLast, rfl⟩ := Option.map_eq_some_iff.mp last
  obtain ⟨before, rfl⟩ := List.getLast?_eq_some_iff.mp isLast
  -- the requests of the last turn are those for the main thread
  obtain ⟨others, earlier, among, -⟩ := serves.visit before ⟨w, []⟩
  obtain ⟨own, afterwards, alone, -⟩ := serves.visit [node] (Linked.visit turn before ⟨w, []⟩).2
  have split : (Linked.visit turn (before ++ [node]) ⟨w, []⟩).2.made = others ++ own := by
    rw [visit_append, afterwards, earlier, List.nil_append]
  refine ⟨_, _, others, own, by rw [returned]; rfl, ?_, ?_, ?_, ?_⟩
  · rw [finished, split]
  · intro asked member same
    rw [tidsOf, List.map_append, List.nodup_append] at distinct
    exact distinct.2.2 _ (among asked member) _ (List.mem_singleton_self _) same
  · intro asked member
    exact List.mem_singleton.mp (alone asked member)
  · rw [finished, List.filter_append, unlike, List.append_nil, all]
    exact order

end Loops

/-! ### The loops over nodes and over threads -/

section Worlds

variable {k : Kernel K} {r : Release K} {attach : K → Int → K} {pid : Int} {g : GlobalState}
  {l : ThreadList}

theorem w_migrationTurn {node : Nat × ThreadNode} (file : g.files node.1 = node.2.regs)
    (s : Requests K) : (migrationTurn k r pid node.1 node.2 s).2.w =
      Ptrace.detachThread k r g pid s.w (thread node) := by
  simp only [migrationTurn, Ptrace.detachThread, setregsStopped, thread, file]
  cases k.setregs s.w.os node.2.tid node.2.regs <;> rfl

theorem w_visit_migrationTurn {nodes : List (Nat × ThreadNode)}
    (files : ∀ node ∈ nodes, g.files node.1 = node.2.regs) (s : Requests K) :
    (Linked.visit (migrationTurn k r pid) nodes s).2.w =
      (nodes.map thread).foldl (Ptrace.detachThread k r g pid) s.w := by
  induction nodes generalizing s with
  | nil => rfl
  | cons node rest ih =>
      obtain ⟨file, others⟩ := List.forall_mem_cons.mp files
      rw [List.map_cons, List.foldl_cons, ← w_migrationTurn file]
      exact ih others _

/-- The function does the same to the tracee, on nodes and on the list of threads. -/
theorem ptraceDetachForMigration_refines (represents : l.Represents g) (w : World K) :
    ∃ left s, ptraceDetachForMigration k r pid l w = some (left, s) ∧
      s.w = Ptrace.ptraceDetachForMigration k r g w pid := by
  obtain ⟨nodes, dead, shows⟩ := represents
  obtain ⟨left, returned, -⟩ :=
    shows.holds.live.each (migrationTurn k r pid) ⟨w, []⟩
  refine ⟨_, _, by rw [ptraceDetachForMigration, returned]; rfl, ?_⟩
  rw [Ptrace.ptraceDetachForMigration, shows.tHead]
  exact w_visit_migrationTurn (fun node member =>
    shows.files node (List.mem_append_left dead member)) ⟨w, []⟩

theorem w_visit_reattachTurn (nodes : List (Nat × ThreadNode)) (g : GlobalState)
    (s : Requests K) : (Linked.visit (reattachTurn k attach) nodes s).2.w =
      (GdbReturn.reattachNodes k attach (nodes.map thread) g s.w).2 := by
  induction nodes generalizing g s with
  | nil => rfl
  | cons node rest ih => exact ih _ _

theorem ptraceReattachFromGdb_refines (represents : l.Represents g) (w : World K) :
    ∃ left s, ptraceReattachFromGdb k attach l w = some (left, s) ∧
      s.w = (GdbReturn.ptraceReattachFromGdb k attach g w).2 := by
  obtain ⟨nodes, dead, shows⟩ := represents
  obtain ⟨left, returned, -⟩ :=
    shows.holds.live.each (reattachTurn k attach) ⟨w, []⟩
  refine ⟨_, _, by rw [ptraceReattachFromGdb, returned]; rfl, ?_⟩
  rw [GdbReturn.ptraceReattachFromGdb, shows.tHead]
  exact w_visit_reattachTurn nodes g ⟨w, []⟩

end Worlds

/-! ### Every history of registrations -/

section Histories

variable (k : Kernel K) (r : Release K) (attach : K → Int → K)

/-- The nodes are those of `t_HEAD`, the main thread is the last one, no thread is there twice,
and all three functions come to the main thread after all others. -/
structure MainLast (l : ThreadList) (main : Int) (order : List Int)
    (nodes : List (Nat × ThreadNode)) : Prop where
  chain : Chain l.nodes l.tHead nodes
  last : (tidsOf nodes).getLast? = some main
  distinct : (tidsOf nodes).Nodup
  reversed : tidsOf nodes = order.reverse
  kill : ∀ pid w, TreatsLast main .detach order.reverse [(.waitpid, pid)]
    (ptraceDetachForKill k r pid l w)
  migration : ∀ pid w, TreatsLast main .detach order.reverse []
    (ptraceDetachForMigration k r pid l w)
  reattach : ∀ w, TreatsLast main .attach order.reverse [] (ptraceReattachFromGdb k attach l w)

variable {k r attach} {main : Int} {order : List Int} {l : ThreadList}

theorem mainLast_of_inOrder (inOrder : l.InOrder order) (first : order.head? = some main) :
    ∃ nodes, MainLast k r attach l main order nodes := by
  obtain ⟨once, nodes, dead, holds, tids⟩ := inOrder
  have distinct : (tidsOf nodes).Nodup := tids ▸ List.nodup_reverse.mpr once
  have last : (tidsOf nodes).getLast? = some main := by
    rw [tids, List.getLast?_reverse, first]
  refine ⟨nodes, holds.live, last, distinct, tids, fun pid w => ?_, fun pid w => ?_, fun w => ?_⟩
  · rw [← tids]
    exact killTurn_serves.treatsLast holds.live distinct last w (fun _ => rfl) rfl
  · rw [← tids]
    exact migrationTurn_serves.treatsLast holds.live distinct last w
      (fun _ => (List.append_nil _).symm) rfl
  · rw [← tids]
    exact reattachTurn_serves.treatsLast holds.live distinct last w
      (fun _ => (List.append_nil _).symm) rfl

/-- **The main thread is detached last**: it was registered first, so that every other thread has
been put in front of it, and no thread that is taken out changes the order of the rest. -/
theorem main_thread_last {w : World K} {malloc : Ptr} {junk : UserRegs}
    {calls : List (ThreadCall K)} {s : Threads K}
    (kept : ThreadCall.unregisterThread main ∉ calls)
    (reached : (threadCalls k).run ⟨.empty, w⟩ (.registerThread main malloc junk :: calls) =
      some s) :
    (∃ nodes, MainLast k r attach s.list main (calls.foldl ThreadCall.enroll [main]) nodes) ∧
      ∀ call, s.Admits call → (s.call k call).isSome := by
  have all : s.list.InOrder
      ((.registerThread main malloc junk :: calls).foldl ThreadCall.enroll []) :=
    run_inOrder inOrder_empty reached
  have inOrder : s.list.InOrder (calls.foldl ThreadCall.enroll [main]) := all
  exact ⟨mainLast_of_inOrder inOrder (head?_foldl_enroll rfl kept),
    fun call => Threads.call_returns inOrder⟩

/-- Threads 2, 3 and 4 are registered, 1 and 3 once more, 3 is gone, and comes again. -/
def births : List (ThreadCall Script) :=
  [.registerThread 2 5 fun _ => 0, .registerThread 3 8 fun _ => 0, .registerThread 1 9 fun _ => 0,
    .registerThread 4 2 fun _ => 0, .registerThread 3 9 fun _ => 0, .unregisterThread 3,
    .unregisterThread 7, .registerThread 3 9 fun _ => 0]

theorem births_main_last : ∃ s, (threadCalls scripted).run
    ⟨.empty, .nops { registers := fun _ => none }⟩
      (.registerThread 1 0 (fun _ => 0) :: births) = some s ∧
    (∃ nodes, MainLast scripted letGo (fun os _ => os) s.list 1 [1, 2, 4, 3] nodes) ∧
      ∀ call, s.Admits call → (s.call scripted call).isSome := by
  obtain ⟨s, reached⟩ : ∃ s, (threadCalls scripted).run
      ⟨.empty, .nops { registers := fun _ => none }⟩
        (.registerThread 1 0 (fun _ => 0) :: births) = some s :=
    Option.isSome_iff_exists.mp (by decide +kernel)
  exact ⟨s, reached, main_thread_last (by simp [births]) reached⟩

end Histories

end Libdebug.Ptrace.DetachOrder
