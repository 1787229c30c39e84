import Libdebug.Ptrace.Managers
import Libdebug.Ptrace.StatusHandler
import Libdebug.Cffi.Nodes

/-!
The three registries of threads: the nodes of `t_HEAD`, the thread contexts, of which those
of dead threads stay, and the keys of `hardware_bp_helpers`.

A new thread enters all three, and a thread that exits leaves the first and the third; but
`set_thread_as_dead` marks the first context with its id, which is another one where an
earlier thread had that id.
-/

namespace Libdebug.Ptrace

open Libdebug.Foundation Libdebug.Cffi

/-! ### The registries alone -/

/-- Nodes are ids and register files; contexts tell besides whether they are dead. -/
structure Registries where
  nodes : List (Int × Ptr)
  contexts : List (Int × Bool × Ptr)
  helpers : List Int
  deriving DecidableEq

/-- Mark the first context with the id. -/
def markDead (tid : Int) : List (Int × Bool × Ptr) → List (Int × Bool × Ptr)
  | [] => []
  | context :: rest =>
      if context.1 = tid then (context.1, true, context.2.2) :: rest
      else context :: markDead tid rest

namespace Registries

def birth (r : Registries) (tid : Int) (file : Ptr) : Registries where
  nodes := (tid, file) :: r.nodes
  contexts := r.contexts ++ [(tid, false, file)]
  helpers := r.helpers ++ [tid]

def death (r : Registries) (tid : Int) : Registries where
  nodes := r.nodes.eraseP (·.1 = tid)
  contexts := markDead tid r.contexts
  helpers := r.helpers.filter (· ≠ tid)

/-- The ids and register files of the contexts that are not dead. -/
def live (r : Registries) : List (Int × Ptr) :=
  (r.contexts.filter (!·.2.1)).map fun context => (context.1, context.2.2)

structure Agree (r : Registries) : Prop where
  once : (r.live.map Prod.fst).Nodup
  nodes : ∀ node, node ∈ r.nodes ↔ node ∈ r.live
  helpers : ∀ tid, tid ∈ r.helpers ↔ tid ∈ r.live.map Prod.fst

/-- A context that is followed by another one with its id is dead. -/
def Settled (contexts : List (Int × Bool × Ptr)) : Prop :=
  contexts.Pairwise fun earlier later => earlier.1 = later.1 → earlier.2.1 = true

variable {r : Registries} {tid : Int} {file : Ptr}

theorem mem_live {node : Int × Ptr} : node ∈ r.live ↔ (node.1, false, node.2) ∈ r.contexts := by
  constructor
  · intro member
    obtain ⟨⟨id, dead, regs⟩, there, rfl⟩ := List.mem_map.mp member
    obtain ⟨there, alive⟩ := List.mem_filter.mp there
    obtain rfl : dead = false := by simpa using alive
    exact there
  · intro member
    exact List.mem_map.mpr ⟨_, List.mem_filter.mpr ⟨member, rfl⟩, rfl⟩

theorem mem_live_ids : tid ∈ r.live.map Prod.fst ↔ ∃ file, (tid, false, file) ∈ r.contexts := by
  constructor
  · intro member
    obtain ⟨⟨id, regs⟩, there, rfl⟩ := List.mem_map.mp member
    exact ⟨regs, mem_live.mp there⟩
  · rintro ⟨file, member⟩
    exact List.mem_map.mpr ⟨(tid, file), mem_live.mpr member, rfl⟩

theorem live_birth : (r.birth tid file).live = r.live ++ [(tid, file)] := by
  simp [live, birth]

theorem Agree.birth (agree : r.Agree) (absent : tid ∉ r.nodes.map Prod.fst) :
    (r.birth tid file).Agree := by
  have notLive : tid ∉ r.live.map Prod.fst := by
    intro member
    obtain ⟨node, there, same⟩ := List.mem_map.mp member
    exact absent (List.mem_map.mpr ⟨node, (agree.nodes node).mpr there, same⟩)
  constructor
  · rw [live_birth, List.map_append, List.nodup_append]
    refine ⟨agree.once, List.nodup_singleton _, ?_⟩
    intro id old other new same
    obtain rfl : other = tid := List.mem_singleton.mp new
    exact notLive (same ▸ old)
  · intro node
    rw [live_birth]
    simp only [Registries.birth, List.mem_cons, List.mem_append, List.not_mem_nil, or_false,
      agree.nodes node]
    exact or_comm
  · intro id
    rw [live_birth]
    simp only [Registries.birth, List.map_append, List.mem_append, agree.helpers id]
    rfl

theorem Settled.append (settled : Settled r.contexts) (notLive : tid ∉ r.live.map Prod.fst) :
    Settled (r.birth tid file).contexts := by
  refine List.pairwise_append.mpr ⟨settled, List.pairwise_singleton _ _, ?_⟩
  rintro ⟨id, dead, regs⟩ old _ new same
  obtain rfl := List.mem_singleton.mp new
  obtain rfl : id = tid := same
  cases dead with
  | true => rfl
  | false => exact absurd (mem_live_ids.mpr ⟨regs, old⟩) notLive

theorem filter_markDead {contexts : List (Int × Bool × Ptr)} (settled : Settled contexts)
    (unused : ∀ context ∈ contexts, context.1 = tid → context.2.1 = false) :
    (markDead tid contexts).filter (!·.2.1) =
      (contexts.filter (!·.2.1)).filter (·.1 ≠ tid) := by
  induction contexts with
  | nil => rfl
  | cons context rest ih =>
      obtain ⟨later, settled⟩ := List.pairwise_cons.mp settled
      obtain ⟨here, unused⟩ := List.forall_mem_cons.mp unused
      unfold markDead
      split
      · rename_i same
        have alive : context.2.1 = false := here same
        have others : (rest.filter (!·.2.1)).filter (·.1 ≠ tid) = rest.filter (!·.2.1) := by
          apply List.filter_eq_self.mpr
          intro other member
          have different : other.1 ≠ tid := by
            intro equal
            have dead := later other (List.mem_of_mem_filter member) (same.trans equal.symm)
            rw [alive] at dead
            cases dead
          exact decide_eq_true different
        rw [List.filter_cons_of_neg (by simp), List.filter_cons_of_pos (by simp [alive]),
          List.filter_cons_of_neg (by simp [same]), others]
      · rename_i different
        cases dead : context.2.1 with
        | true =>
            rw [List.filter_cons_of_neg (by simp [dead]), List.filter_cons_of_neg (by simp [dead]),
              ih settled unused]
        | false =>
            rw [List.filter_cons_of_pos (by simp [dead]), List.filter_cons_of_pos (by simp [dead]),
              List.filter_cons_of_pos (by simp [different]), ih settled unused]

/-- Where no thread with the id has died, the one context with the id is marked. -/
theorem live_death (settled : Settled r.contexts)
    (unused : ∀ context ∈ r.contexts, context.1 = tid → context.2.1 = false) :
    (r.death tid).live = r.live.filter (·.1 ≠ tid) := by
  rw [live, live, death, filter_markDead settled unused, List.filter_map]
  rfl

/-- Where a thread with the id has died before, nothing is marked. -/
theorem markDead_reused {contexts : List (Int × Bool × Ptr)} (settled : Settled contexts)
    (died : (tid, true, file) ∈ contexts) : markDead tid contexts = contexts := by
  induction contexts with
  | nil => cases died
  | cons context rest ih =>
      obtain ⟨later, settled⟩ := List.pairwise_cons.mp settled
      unfold markDead
      split
      · rename_i same
        rcases List.mem_cons.mp died with rfl | died
        · rfl
        · have dead := later _ died same
          rw [← dead]
      · rename_i different
        rcases List.mem_cons.mp died with rfl | died
        · exact absurd rfl different
        · rw [ih settled died]

theorem ids_markDead (tid : Int) (contexts : List (Int × Bool × Ptr)) :
    (markDead tid contexts).map Prod.fst = contexts.map Prod.fst := by
  induction contexts with
  | nil => rfl
  | cons context rest ih =>
      unfold markDead
      split
      · rfl
      · rw [List.map_cons, ih, List.map_cons]

theorem settled_markDead {contexts : List (Int × Bool × Ptr)} (settled : Settled contexts) :
    Settled (markDead tid contexts) := by
  induction contexts with
  | nil => exact settled
  | cons context rest ih =>
      obtain ⟨later, settled⟩ := List.pairwise_cons.mp settled
      unfold markDead
      split
      · exact List.pairwise_cons.mpr ⟨fun _ _ _ => rfl, settled⟩
      · refine List.pairwise_cons.mpr ⟨?_, ih settled⟩
        intro marked member same
        have listed : marked.1 ∈ rest.map Prod.fst :=
          ids_markDead tid rest ▸ List.mem_map_of_mem member
        obtain ⟨old, there, equal⟩ := List.mem_map.mp listed
        exact later old there (same.trans equal.symm)

theorem eraseP_eq_filter {nodes : List (Int × Ptr)} (distinct : (nodes.map Prod.fst).Nodup)
    (tid : Int) : nodes.eraseP (·.1 = tid) = nodes.filter (·.1 ≠ tid) := by
  induction nodes with
  | nil => rfl
  | cons node rest ih =>
      obtain ⟨absent, distinct⟩ := List.nodup_cons.mp distinct
      by_cases same : node.1 = tid
      · have others : rest.filter (·.1 ≠ tid) = rest := by
          apply List.filter_eq_self.mpr
          intro other member
          have different : other.1 ≠ tid := by
            rintro equal
            exact absent (List.mem_map.mpr ⟨other, member, equal.trans same.symm⟩)
          exact decide_eq_true different
        rw [List.eraseP_cons_of_pos (by simp [same]), List.filter_cons_of_neg (by simp [same]),
          others]
      · rw [List.eraseP_cons_of_neg (by simp [same]), List.filter_cons_of_pos (by simp [same]),
          ih distinct]

/-- What the registries agree on after a death, provided that no thread with the id has died
before. -/
theorem Agree.death (agree : r.Agree) (distinct : (r.nodes.map Prod.fst).Nodup)
    (settled : Settled r.contexts)
    (unused : ∀ context ∈ r.contexts, context.1 = tid → context.2.1 = false) :
    (r.death tid).Agree := by
  have left := live_death settled unused
  constructor
  · rw [left]
    exact agree.once.sublist (List.filter_sublist.map _)
  · intro node
    rw [left, Registries.death, eraseP_eq_filter distinct, List.mem_filter, List.mem_filter,
      agree.nodes node]
  · intro id
    rw [left, Registries.death, List.mem_filter, agree.helpers id]
    constructor
    · rintro ⟨member, different⟩
      obtain ⟨node, there, rfl⟩ := List.mem_map.mp member
      exact List.mem_map_of_mem (List.mem_filter.mpr ⟨there, different⟩)
    · intro member
      obtain ⟨node, there, rfl⟩ := List.mem_map.mp member
      obtain ⟨there, different⟩ := List.mem_filter.mp there
      exact ⟨List.mem_map_of_mem there, different⟩

/-- Where a thread with the id has died before, the contexts disagree with the nodes. -/
theorem not_agree_death (agree : r.Agree) (distinct : (r.nodes.map Prod.fst).Nodup)
    (settled : Settled r.contexts) (registered : tid ∈ r.nodes.map Prod.fst)
    (died : (tid, true, file) ∈ r.contexts) : ¬ (r.death tid).Agree := by
  intro after
  obtain ⟨node, there, rfl⟩ := List.mem_map.mp registered
  have unmarked : (r.death node.1).live = r.live := by
    rw [live, live, Registries.death, markDead_reused settled died]
  have stays : node ∈ (r.death node.1).nodes := by
    rw [after.nodes, unmarked, ← agree.nodes]
    exact there
  rw [Registries.death, eraseP_eq_filter distinct, List.mem_filter] at stays
  simp at stays

end Registries

/-! ### The registries of the debugger -/

section Refinement

variable {K : Type} {k : Kernel K} {s t : Debugger K}

def Debugger.registries (s : Debugger K) : Registries where
  nodes := nodeIds s.globalState
  contexts := s.identities
  helpers := s.hardwareBpHelpers.keys

/-- The ids of the nodes, those of the contexts that are not dead, each of which is there
once, and the keys of the dictionary are the same; and by the id of a node a context with
its register file is found. -/
structure RegistriesAgree (s : Debugger K) : Prop where
  once : ((s.threads.filter (!·.dead)).map (·.threadId)).Nodup
  nodes : ∀ tid, tid ∈ s.globalState.tHead.map (·.tid) ↔
    tid ∈ (s.threads.filter (!·.dead)).map (·.threadId)
  helpers : ∀ tid, tid ∈ s.hardwareBpHelpers.keys ↔
    tid ∈ (s.threads.filter (!·.dead)).map (·.threadId)
  files : ∀ node ∈ s.globalState.tHead, s.liveFile node.tid = some node.regs

theorem live_ids (s : Debugger K) :
    s.registries.live.map Prod.fst = (s.threads.filter (!·.dead)).map (·.threadId) := by
  simp only [Registries.live, Debugger.registries, Debugger.identities, List.filter_map,
    List.map_map]
  rfl

/-- The register file found by an id is one of a context that is not dead. -/
theorem mem_live_of_liveFile {tid : Int} {file : Ptr} (found : s.liveFile tid = some file) :
    (tid, file) ∈ s.registries.live := by
  obtain ⟨thread, there, rfl⟩ := Option.map_eq_some_iff.mp found
  rw [Debugger.getThreadById, ← List.find?_eq_bind_findIdx?_getElem?] at there
  have named := List.find?_some there
  simp only [Bool.and_eq_true, decide_eq_true_eq, Bool.not_eq_true'] at named
  rw [Registries.mem_live]
  refine List.mem_map.mpr ⟨thread, List.mem_of_find?_eq_some there, ?_⟩
  simp [named.1, named.2]

/-- A context that is not dead is found by its id, where it is the only one. -/
theorem liveFile_of_mem_live (once : (s.registries.live.map Prod.fst).Nodup) {tid : Int}
    {file : Ptr} (live : (tid, file) ∈ s.registries.live) : s.liveFile tid = some file := by
  obtain ⟨thread, member, same⟩ := List.mem_map.mp (Registries.mem_live.mp live)
  simp only [Prod.mk.injEq] at same
  rcases found : s.liveFile tid with _ | other
  · have absent := Option.map_eq_none_iff.mp found
    rw [Debugger.getThreadById, ← List.find?_eq_bind_findIdx?_getElem?] at absent
    have named := List.find?_eq_none.mp absent thread member
    simp [same.1, same.2.1] at named
  · have equal := List.inj_on_of_nodup_map once (mem_live_of_liveFile found) live rfl
    rw [(Prod.mk.inj equal).2]

theorem mem_nodes {node : Int × Ptr} :
    node ∈ s.registries.nodes ↔ ∃ t ∈ s.globalState.tHead, (t.tid, t.regs) = node := List.mem_map

theorem registriesAgree_iff : RegistriesAgree s ↔ s.registries.Agree := by
  constructor
  · intro agree
    have once : (s.registries.live.map Prod.fst).Nodup := live_ids s ▸ agree.once
    refine ⟨once, ?_, fun tid => live_ids s ▸ agree.helpers tid⟩
    rintro ⟨tid, file⟩
    constructor
    · intro member
      obtain ⟨t, there, same⟩ := mem_nodes.mp member
      obtain ⟨rfl, rfl⟩ := Prod.mk.inj same
      exact mem_live_of_liveFile (agree.files t there)
    · intro live
      have listed : tid ∈ s.registries.live.map Prod.fst := List.mem_map_of_mem live
      rw [live_ids, ← agree.nodes] at listed
      obtain ⟨t, there, rfl⟩ := List.mem_map.mp listed
      have found := (agree.files t there).symm.trans (liveFile_of_mem_live once live)
      exact mem_nodes.mpr ⟨t, there, by rw [Option.some.inj found]⟩
  · intro agree
    refine ⟨live_ids s ▸ agree.once, ?_, fun tid => live_ids s ▸ agree.helpers tid, ?_⟩
    · intro tid
      rw [← live_ids]
      constructor
      · intro member
        obtain ⟨t, there, rfl⟩ := List.mem_map.mp member
        have live := (agree.nodes (t.tid, t.regs)).mp (mem_nodes.mpr ⟨t, there, rfl⟩)
        exact List.mem_map_of_mem live
      · intro member
        obtain ⟨node, live, rfl⟩ := List.mem_map.mp member
        obtain ⟨t, there, rfl⟩ := mem_nodes.mp ((agree.nodes node).mpr live)
        exact List.mem_map_of_mem there
    · intro t there
      have live := (agree.nodes (t.tid, t.regs)).mp (mem_nodes.mpr ⟨t, there, rfl⟩)
      exact liveFile_of_mem_live agree.once live

/-- Installing a hardware breakpoint leaves the registries as they are. -/
theorem installBreakpoint_registries (threadId : Int) (bp : Ref) :
    Leaves Debugger.registries (installBreakpoint k threadId bp) := by
  have poke (register : Int) (address value : Nat) :
      Leaves Debugger.registries (pokeUser k register address value) :=
    pokeUser_keeps (fun _ _ => rfl) register address value
  refine (getHelper_keeps _).bind fun helper => Keeps.get.bind fun s => ?_
  apply Keeps.ite
  · exact fun _ => Keeps.throw _
  · intro _
    split
    · exact Keeps.throw _
    · refine (poke _ _ _).bind fun _ => ?_
      split
      · refine (peekUser_keeps _ _).bind fun _ => (poke _ _ _).bind fun _ => ?_
        apply Keeps.modify
        intro s
        simp [Same, Debugger.registries, Debugger.setDebugReg, Debugger.identities]
      · exact Keeps.throw _

/-- Registering a thread that is in none of the registries. -/
theorem registerNewThread_registries {tid : Int} (noNode : tid ∉ s.registries.nodes.map Prod.fst)
    (noHelper : tid ∉ s.registries.helpers) :
    (stateAfter (registerNewThread k tid) s).registries =
      s.registries.birth tid s.globalState.fresh := by
  have absent : s.globalState.tHead.find? (·.tid = tid) = none := by
    rw [List.find?_eq_none]
    intro t there
    have different : t.tid ≠ tid := by
      rintro rfl
      exact noNode (List.mem_map_of_mem (mem_nodes.mpr ⟨t, there, rfl⟩))
    simpa using different
  set g := (registerThread k s.globalState s.world tid).2 with registered
  have file : (registerThread k s.globalState s.world tid).1 = s.globalState.fresh := by
    simp only [registerThread, absent]
  have nodes : nodeIds g = (tid, s.globalState.fresh) :: nodeIds s.globalState := by
    simp only [registered, registerThread, absent, nodeIds, GlobalState.getregs_tHead,
      List.map_cons]
  have keys : (s.hardwareBpHelpers.set tid {}).keys = s.hardwareBpHelpers.keys ++ [tid] :=
    Dict.keys_set_of_absent noHelper
  set inserted := ({ s with globalState := g }).insertNewThread tid s.globalState.fresh with after
  have kept (bps : List Ref) : Leaves Debugger.registries (bps.forM (installBreakpoint k tid)) :=
    Keeps.forM fun bp _ => installBreakpoint_registries tid bp
  have whole : stateAfter (registerNewThread k tid) s = stateAfter
      ((inserted.breakpoints.values.filter fun bp => (inserted.objects bp).hardware).forM
        (installBreakpoint k tid)) inserted := by
    rw [after, ← file]
    rfl
  rw [whole]
  refine (kept _ inserted).trans ?_
  rw [after]
  simp only [Debugger.registries, Debugger.insertNewThread, Debugger.identities, nodes, keys,
    List.map_append, Registries.birth]
  rfl

theorem map_markFirst (tid : Int) (threads : List ThreadContext)
    {f : ThreadContext → ThreadContext}
    (marks : ∀ c, ((f c).threadId, (f c).dead, (f c).registerFile) =
      (c.threadId, true, c.registerFile)) :
    (match threads.findIdx? fun thread : ThreadContext => thread.threadId = tid with
      | none => threads
      | some thread => threads.modify thread f).map
        (fun thread : ThreadContext => (thread.threadId, thread.dead, thread.registerFile)) =
      markDead tid (threads.map fun thread =>
        (thread.threadId, thread.dead, thread.registerFile)) := by
  induction threads with
  | nil => rfl
  | cons context rest ih =>
      rw [List.map_cons, markDead, List.findIdx?_cons]
      by_cases same : context.threadId = tid
      · simp [same, marks context]
      · rw [if_neg same, ← ih]
        rcases rest.findIdx? (fun thread : ThreadContext => thread.threadId = tid) with _ | index
        · simp [same]
        · simp [same]

theorem setThreadAsDead_identities (s : Debugger K) (threadId : Int)
    (exitCode exitSignal : Option Nat) :
    (s.setThreadAsDead threadId exitCode exitSignal).identities =
      markDead threadId s.identities := by
  have marked := map_markFirst threadId s.threads
    (f := fun t => { t with dead := true, exitCode, exitSignal }) fun _ => rfl
  refine Eq.trans ?_ marked
  unfold Debugger.setThreadAsDead
  rcases s.threads.findIdx? (fun thread : ThreadContext => thread.threadId = threadId) with
    _ | thread <;> rfl

theorem erase_first {threads : List Thread} {p : Thread → Bool} {t : Thread}
    (found : threads.find? p = some t) : threads.erase t = threads.eraseP p := by
  induction threads with
  | nil => cases found
  | cons first rest ih =>
      rcases here : p first with _ | _
      · rw [List.find?_cons_of_neg (by simp [here])] at found
        have different : first ≠ t := by
          rintro rfl
          simp [List.find?_some found] at here
        rw [List.erase_cons_tail (by simpa using different),
          List.eraseP_cons_of_neg (by simp [here]), ih found]
      · rw [List.find?_cons_of_pos here, Option.some.injEq] at found
        rw [← found, List.erase_cons_head, List.eraseP_cons_of_pos here]

theorem unregisterThread_nodeIds (g : GlobalState) (tid : Int) :
    nodeIds (Cffi.unregisterThread g tid) = (nodeIds g).eraseP (·.1 = tid) := by
  have mapped : (nodeIds g).eraseP (·.1 = tid) =
      (g.tHead.eraseP (·.tid = tid)).map fun t => (t.tid, t.regs) := List.eraseP_map
  rw [mapped]
  rcases found : g.tHead.find? (·.tid = tid) with _ | t
  · rw [List.eraseP_of_forall_not fun t there => List.find?_eq_none.mp found t there]
    simp only [Cffi.unregisterThread, found, nodeIds]
  · rw [← erase_first found]
    simp only [Cffi.unregisterThread, found, nodeIds]

/-- What a thread leaves behind that exits. -/
theorem handleExit_registries {tid : Int} (exitCode exitSignal : Option Nat)
    (live : tid ∈ s.registries.live.map Prod.fst) :
    (stateAfter (handleExit tid exitCode exitSignal) s).registries = s.registries.death tid := by
  have found : (s.getThreadById tid).isSome = true := by
    obtain ⟨file, member⟩ := Registries.mem_live_ids.mp live
    obtain ⟨thread, there, same⟩ := List.mem_map.mp member
    simp only [Prod.mk.injEq] at same
    rw [Debugger.getThreadById, List.findIdx?_isSome, List.any_eq_true]
    exact ⟨thread, there, by simp [same.1, same.2.1]⟩
  set marked := ({ s with
    globalState := Cffi.unregisterThread s.globalState tid }).setThreadAsDead
      tid exitCode exitSignal with after
  have whole : stateAfter (handleExit tid exitCode exitSignal) s =
      stateAfter (popHelper tid) marked := by
    rw [handleExit, stateAfter_bind_ok (run_getThreadById tid s), if_pos found]
    rfl
  have popped : (stateAfter (popHelper tid) marked).registries =
      { marked.registries with helpers := marked.registries.helpers.filter (· ≠ tid) } := by
    rw [popHelper, stateAfter_get_bind]
    split
    · simp only [stateAfter_modify, Debugger.registries, Dict.keys_erase]
      rfl
    · rename_i absent
      have unchanged : marked.registries.helpers.filter (· ≠ tid) = marked.registries.helpers := by
        apply List.filter_eq_self.mpr
        intro other member
        have different : other ≠ tid := by
          rintro rfl
          exact absent member
        exact decide_eq_true different
      rw [unchanged]
      rfl
  have contexts : marked.identities = markDead tid s.identities :=
    setThreadAsDead_identities _ tid exitCode exitSignal
  have others : marked.globalState = Cffi.unregisterThread s.globalState tid ∧
      marked.hardwareBpHelpers = s.hardwareBpHelpers := by
    rw [after]
    unfold Debugger.setThreadAsDead
    split <;> exact ⟨rfl, rfl⟩
  rw [whole, popped]
  simp only [Debugger.registries, contexts, others.1, others.2, unregisterThread_nodeIds,
    Registries.death]

end Refinement

/-! ### Births and deaths -/

section Runs

variable {K : Type}

/-- The debugger, and the ids of the threads that live. -/
structure Process (K : Type) where
  debugger : Debugger K
  alive : List Int

inductive ThreadEvent (K : Type) where
  | birth (tid : Int)
  | death (tid : Int) (exitCode exitSignal : Option Nat)
  /-- whatever else happens, of which the registries are not aware -/
  | meanwhile (s : Debugger K)

/-- The kernel gives a new thread an id that no living one has; it may be that of a dead
one. -/
def births (k : Kernel K) : Machine (Process K) (ThreadEvent K) where
  step p
    | .birth tid =>
        if tid ∈ p.alive then none
        else some ⟨stateAfter (registerNewThread k tid) p.debugger, tid :: p.alive⟩
    | .death tid exitCode exitSignal =>
        if tid ∈ p.alive then
          some ⟨stateAfter (handleExit tid exitCode exitSignal) p.debugger,
            p.alive.filter (· ≠ tid)⟩
        else none
    | .meanwhile s => if s.registries = p.debugger.registries then some ⟨s, p.alive⟩ else none

/-- No thread dies whose id an earlier one had that is dead. -/
def Unreused (p : Process K) : ThreadEvent K → Prop
  | .death tid _ _ => ∀ thread ∈ p.debugger.threads, thread.threadId = tid → thread.dead = false
  | _ => True

instance (p : Process K) : ∀ event, Decidable (Unreused p event)
  | .death _ _ _ => inferInstanceAs (Decidable (∀ thread ∈ p.debugger.threads, _))
  | .birth _ => .isTrue trivial
  | .meanwhile _ => .isTrue trivial

/-- The invariant of runs in which the registries agree. -/
structure Process.InOrder (p : Process K) : Prop where
  agree : p.debugger.registries.Agree
  distinct : (p.debugger.registries.nodes.map Prod.fst).Nodup
  settled : Registries.Settled p.debugger.registries.contexts
  alive : ∀ tid, tid ∈ p.alive ↔ tid ∈ p.debugger.registries.nodes.map Prod.fst

variable {k : Kernel K} {p q : Process K} {event : ThreadEvent K} {events : List (ThreadEvent K)}
  {tid : Int}

theorem Process.InOrder.live_iff (inOrder : p.InOrder) :
    tid ∈ p.alive ↔ tid ∈ p.debugger.registries.live.map Prod.fst := by
  rw [inOrder.alive, List.mem_map, List.mem_map]
  exact exists_congr fun node => and_congr_left fun _ => inOrder.agree.nodes node

theorem Process.InOrder.birth (inOrder : p.InOrder) (unused : tid ∉ p.alive) :
    Process.InOrder ⟨stateAfter (registerNewThread k tid) p.debugger, tid :: p.alive⟩ := by
  have absent : tid ∉ p.debugger.registries.nodes.map Prod.fst :=
    (not_congr (inOrder.alive tid)).mp unused
  have notLive : tid ∉ p.debugger.registries.live.map Prod.fst :=
    (not_congr inOrder.live_iff).mp unused
  have noHelper : tid ∉ p.debugger.registries.helpers := fun member =>
    notLive ((inOrder.agree.helpers tid).mp member)
  have after := registerNewThread_registries (k := k) absent noHelper
  constructor
  · rw [after]
    exact inOrder.agree.birth absent
  · rw [after]
    exact List.nodup_cons.mpr ⟨absent, inOrder.distinct⟩
  · rw [after]
    exact inOrder.settled.append notLive
  · intro other
    rw [after]
    simp only [Registries.birth, List.map_cons, List.mem_cons, inOrder.alive other]

theorem Process.InOrder.death (inOrder : p.InOrder) (live : tid ∈ p.alive)
    {exitCode exitSignal : Option Nat} (unreused : Unreused p (.death tid exitCode exitSignal)) :
    Process.InOrder
      ⟨stateAfter (handleExit tid exitCode exitSignal) p.debugger, p.alive.filter (· ≠ tid)⟩ := by
  have after := handleExit_registries exitCode exitSignal
    (inOrder.live_iff.mp live)
  have unused : ∀ context ∈ p.debugger.registries.contexts, context.1 = tid →
      context.2.1 = false := by
    intro context member
    obtain ⟨thread, there, rfl⟩ := List.mem_map.mp member
    exact unreused thread there
  have fewer := Registries.eraseP_eq_filter inOrder.distinct tid
  constructor
  · rw [after]
    exact inOrder.agree.death inOrder.distinct inOrder.settled unused
  · rw [after, Registries.death, fewer]
    exact inOrder.distinct.sublist (List.filter_sublist.map _)
  · rw [after]
    exact Registries.settled_markDead inOrder.settled
  · intro other
    rw [after, Registries.death, fewer, List.mem_filter, inOrder.alive other]
    constructor
    · rintro ⟨member, different⟩
      obtain ⟨node, there, rfl⟩ := List.mem_map.mp member
      exact List.mem_map_of_mem (List.mem_filter.mpr ⟨there, different⟩)
    · intro member
      obtain ⟨node, there, rfl⟩ := List.mem_map.mp member
      obtain ⟨there, different⟩ := List.mem_filter.mp there
      exact ⟨List.mem_map_of_mem there, different⟩

/-- After a step the registries agree if and only if no id was reused. -/
theorem registries_step (inOrder : p.InOrder) (stepped : (births k).step p event = some q) :
    (RegistriesAgree q.debugger ↔ Unreused p event) ∧ (Unreused p event → q.InOrder) := by
  cases event with
  | birth tid =>
      simp only [births, Option.ite_none_left_eq_some, Option.some.injEq] at stepped
      obtain ⟨unused, rfl⟩ := stepped
      have after := inOrder.birth (k := k) unused
      exact ⟨iff_of_true (registriesAgree_iff.mpr after.agree) trivial, fun _ => after⟩
  | death tid exitCode exitSignal =>
      simp only [births, Option.ite_none_right_eq_some, Option.some.injEq] at stepped
      obtain ⟨live, rfl⟩ := stepped
      refine ⟨⟨?_, fun unreused => registriesAgree_iff.mpr (inOrder.death live unreused).agree⟩,
        inOrder.death live⟩
      intro agree thread there same
      have after := handleExit_registries exitCode exitSignal
        (inOrder.live_iff.mp live)
      cases dead : thread.dead with
      | false => rfl
      | true =>
          have died : (tid, true, thread.registerFile) ∈ p.debugger.registries.contexts :=
            List.mem_map.mpr ⟨thread, there, by rw [same, dead]⟩
          have disagree := Registries.not_agree_death inOrder.agree inOrder.distinct
            inOrder.settled ((inOrder.alive tid).mp live) died
          exact absurd (after ▸ registriesAgree_iff.mp agree) disagree
  | meanwhile s =>
      simp only [births, Option.ite_none_right_eq_some, Option.some.injEq] at stepped
      obtain ⟨same, rfl⟩ := stepped
      have after : Process.InOrder ⟨s, p.alive⟩ := by
        constructor
        · exact same ▸ inOrder.agree
        · exact same ▸ inOrder.distinct
        · exact same ▸ inOrder.settled
        · exact same ▸ inOrder.alive
      exact ⟨iff_of_true (registriesAgree_iff.mpr after.agree) trivial, fun _ => after⟩

/-- Whatever threads are born and die, and whatever ids the kernel gives them, the three
registries agree after every event if and only if no thread dies whose id an earlier one
had. -/
theorem thread_registries_agree_iff {s : Debugger K} (empty : s.registries = ⟨[], [], []⟩)
    (reached : (births k).run ⟨s, []⟩ events = some q) :
    (births k).Throughout (fun p => RegistriesAgree p.debugger) ⟨s, []⟩ events ↔
      (births k).Meets Unreused ⟨s, []⟩ events := by
  have agree : Registries.Agree ⟨[], [], []⟩ :=
    ⟨List.nodup_nil, fun _ => Iff.rfl, fun _ => Iff.rfl⟩
  have initial : Process.InOrder ⟨s, []⟩ := by
    constructor
    · exact empty ▸ agree
    · rw [empty]
      exact List.nodup_nil
    · rw [empty]
      exact List.Pairwise.nil
    · rw [empty]
      exact fun _ => Iff.rfl
  apply Machine.throughout_iff (motive := Process.InOrder) _ _ initial
    (registriesAgree_iff.mpr initial.agree) reached
  · intro p event q inOrder stepped
    exact (registries_step inOrder stepped).1
  · intro p event q inOrder unreused stepped
    exact (registries_step inOrder stepped).2 unreused

/-- Two threads are born and one dies; the next one has an id of its own. -/
theorem thread_registries_agree_elsewhere :
    (births scripted).Throughout (fun p => RegistriesAgree p.debugger)
      ⟨.initial (.nops { registers := fun _ => none }), []⟩
      [.birth 1, .birth 2, .death 2 (some 0) none, .birth 3] := by
  obtain ⟨q, reached, -⟩ : ∃ q, (births scripted).run
      ⟨.initial (.nops { registers := fun _ => none }), []⟩
      [.birth 1, .birth 2, .death 2 (some 0) none, .birth 3] = some q ∧ True :=
    Machine.exists_of_run (by decide +kernel)
  exact (thread_registries_agree_iff rfl reached).mpr (by decide +kernel)

/-- The second of two threads with one id is dead, and its context is not. -/
theorem reused_id_stays_alive :
    ∃ q, (births scripted).run ⟨.initial (.nops { registers := fun _ => none }), []⟩
        [.birth 1, .birth 2, .death 2 (some 0) none, .birth 2, .death 2 (some 0) none] = some q ∧
      ¬ RegistriesAgree q.debugger := by
  obtain ⟨q, reached, nodes, contexts⟩ : ∃ q, (births scripted).run
      ⟨.initial (.nops { registers := fun _ => none }), []⟩
      [.birth 1, .birth 2, .death 2 (some 0) none, .birth 2, .death 2 (some 0) none] = some q ∧
        2 ∉ q.debugger.globalState.tHead.map (·.tid) ∧
        2 ∈ (q.debugger.threads.filter (!·.dead)).map (·.threadId) :=
    Machine.exists_of_run (by decide +kernel)
  refine ⟨q, reached, ?_⟩
  intro agree
  exact nodes ((agree.nodes 2).mpr contexts)

end Runs

end Libdebug.Ptrace
