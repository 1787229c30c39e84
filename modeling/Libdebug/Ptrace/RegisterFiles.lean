import Libdebug.Ptrace.ThreadRegistries
import Libdebug.Ptrace.TracedThreads

/-!
The register files of the nodes and the contexts: no two threads have one, in every state that a
session reaches. A new thread gets the file of the node that it has already, or a new one.
-/

namespace Libdebug.Ptrace

open Libdebug.Foundation Libdebug.Cffi

variable {K : Type} {k : Kernel K} {u : UserCode K} {s t : Debugger K} {tid : Int}

namespace Debugger

/-- The register files of nodes and contexts, each with the id of its thread -/
def owners (s : Debugger K) : List (Int × Ptr) :=
  nodeIds s.globalState ++ s.identities.map fun context => (context.1, context.2.2)

/-- No two threads have one register file. -/
structure FilesApart (s : Debugger K) : Prop where
  separate : ∀ a ∈ s.owners, ∀ b ∈ s.owners, a.2 = b.2 → a.1 = b.1
  allocated : ∀ a ∈ s.owners, a.2 < s.globalState.fresh

theorem FilesApart.of_owners (apart : s.FilesApart)
    (owners : ∀ owner ∈ t.owners, owner ∈ s.owners)
    (fresh : t.globalState.fresh = s.globalState.fresh) : t.FilesApart where
  separate a there b here := apart.separate a (owners a there) b (owners b here)
  allocated a there := fresh ▸ apart.allocated a (owners a there)

end Debugger

/-! ### A new thread -/

/-- The node of the thread is one that it has already, or a new one. -/
theorem registerThread_cases (k : Kernel K) (g : GlobalState) (w : World K) (tid : Int) :
    ((tid, (registerThread k g w tid).1) ∈ nodeIds g ∧ (registerThread k g w tid).2 = g) ∨
    ((registerThread k g w tid).1 = g.fresh ∧
      nodeIds (registerThread k g w tid).2 = (tid, g.fresh) :: nodeIds g ∧
      (registerThread k g w tid).2.fresh = g.fresh + 1 ∧
      ∀ file ≠ g.fresh, (registerThread k g w tid).2.files file = g.files file) := by
  rcases found : g.tHead.find? (·.tid = tid) with _ | node
  · right
    simp only [registerThread, found]
    refine ⟨trivial, ?_, ?_, ?_⟩
    · simp only [nodeIds, GlobalState.getregs_tHead, List.map_cons]
    · rw [GlobalState.getregs_fresh]
    · intro file different
      unfold GlobalState.getregs
      split
      · rfl
      · exact Function.update_of_ne different _ _
  · left
    simp only [registerThread, found]
    have own : node.tid = tid := by simpa using List.find?_some found
    exact ⟨List.mem_map.mpr ⟨node, List.mem_of_find?_eq_some found, by rw [own]⟩, trivial⟩

namespace Debugger

/-- The state with the node and the context of a new thread -/
def withThread (k : Kernel K) (s : Debugger K) (tid : Int) : Debugger K :=
  (s.withLib (registerThread k s.globalState s.world tid).2 s.world).insertNewThread tid
    (registerThread k s.globalState s.world tid).1

theorem withThread_owners {owner : Int × Ptr} (member : owner ∈ (s.withThread k tid).owners) :
    owner ∈ s.owners ∨ owner = (tid, (registerThread k s.globalState s.world tid).1) := by
  rw [owners, withThread, identities_insertNewThread, List.map_append] at member
  rcases List.mem_append.mp member with node | context
  · rcases registerThread_cases k s.globalState s.world tid with ⟨-, same⟩ | ⟨new, listed, -⟩
    · exact .inl (List.mem_append_left _ (same ▸ node))
    · have there : owner ∈ (tid, s.globalState.fresh) :: nodeIds s.globalState := listed ▸ node
      rw [new]
      exact (List.mem_cons.mp there).symm.imp_left (List.mem_append_left _)
  · exact (List.mem_append.mp context).imp (List.mem_append_right _) List.mem_singleton.mp

/-- The file of a new thread is none that another thread has. -/
theorem FilesApart.withThread (apart : s.FilesApart) : (s.withThread k tid).FilesApart := by
  have cases := registerThread_cases k s.globalState s.world tid
  set file := (registerThread k s.globalState s.world tid).1 with file_eq
  have owned : ∀ owner ∈ s.owners, owner.2 = file → owner.1 = tid := by
    intro owner member same
    rcases cases with ⟨known, -⟩ | ⟨new, -⟩
    · exact apart.separate owner member (tid, file) (List.mem_append_left _ known) same
    · exact absurd (same.trans new) (Nat.ne_of_lt (apart.allocated owner member))
  constructor
  · intro a there b here same
    rcases withThread_owners there with old | rfl
    · rcases withThread_owners here with also | rfl
      · exact apart.separate a old b also same
      · exact owned a old same
    · rcases withThread_owners here with also | rfl
      · exact (owned b also same.symm).symm
      · rfl
  · intro a there
    change a.2 < (registerThread k s.globalState s.world tid).2.fresh
    rcases cases with ⟨known, same⟩ | ⟨new, -, fresh, -⟩
    · rw [same]
      rcases withThread_owners there with old | rfl
      · exact apart.allocated a old
      · exact apart.allocated (tid, file) (List.mem_append_left _ known)
    · rw [fresh]
      rcases withThread_owners there with old | rfl
      · exact (apart.allocated a old).trans (Nat.lt_succ_self _)
      · exact new ▸ Nat.lt_succ_self _

end Debugger

theorem registerNewThread_filesApart (tid : Int) :
    Maintains Debugger.FilesApart (registerNewThread k tid) := by
  intro s apart
  rw [registerNewThread, stateAfter_bind_ok (callLib_run _ s), stateAfter_modify_bind]
  have installs : Maintains Debugger.FilesApart (do
      let s ← get
      (s.breakpoints.values.filter fun bp => (s.objects bp).hardware).forM
        (installBreakpoint k tid)) := by
    refine Keeps.get.bind fun s => Keeps.forM fun bp _ r before => ?_
    obtain ⟨os, helpers, same⟩ := installBreakpoint_onlyManagers (k := k) tid bp r
    exact before.of_owners (fun owner member => by rwa [same] at member) (by rw [same]; rfl)
  exact installs _ apart.withThread

/-! ### A thread that is gone -/

/-- A context that is marked as dead keeps its id and its register file. -/
theorem files_markDead (tid : Int) (contexts : List (Int × Bool × Ptr)) :
    (markDead tid contexts).map (fun context => (context.1, context.2.2)) =
      contexts.map fun context => (context.1, context.2.2) := by
  induction contexts with
  | nil => rfl
  | cons context rest ih =>
      unfold markDead
      split
      · rfl
      · rw [List.map_cons, ih, List.map_cons]

theorem setThreadAsDead_eq (s : Debugger K) (tid : Int) (exitCode exitSignal : Option Nat) :
    ∃ threads, s.setThreadAsDead tid exitCode exitSignal = { s with threads } := by
  unfold Debugger.setThreadAsDead
  split
  · exact ⟨_, rfl⟩
  · exact ⟨_, rfl⟩

/-- The state in which the node is gone and the context marked -/
def Debugger.unregistered (s : Debugger K) (tid : Int) (exitCode exitSignal : Option Nat) :
    Debugger K :=
  (s.withLib (Cffi.unregisterThread s.globalState tid) s.world).setThreadAsDead tid exitCode
    exitSignal

theorem unregistered_helpers (exitCode exitSignal : Option Nat) :
    (s.unregistered tid exitCode exitSignal).hardwareBpHelpers = s.hardwareBpHelpers := by
  obtain ⟨threads, marked⟩ := setThreadAsDead_eq
    (s.withLib (Cffi.unregisterThread s.globalState tid) s.world) tid exitCode exitSignal
  rw [Debugger.unregistered, marked]
  rfl

theorem unregisterThread_heap (g : GlobalState) (tid : Int) :
    (Cffi.unregisterThread g tid).files = g.files ∧
      (Cffi.unregisterThread g tid).fresh = g.fresh := by
  unfold Cffi.unregisterThread
  split <;> exact ⟨rfl, rfl⟩

theorem unregistered_owners {exitCode exitSignal : Option Nat} {owner : Int × Ptr}
    (member : owner ∈ (s.unregistered tid exitCode exitSignal).owners) : owner ∈ s.owners := by
  have contexts : (s.unregistered tid exitCode exitSignal).identities =
      markDead tid s.identities := setThreadAsDead_identities _ tid exitCode exitSignal
  obtain ⟨threads, marked⟩ := setThreadAsDead_eq
    (s.withLib (Cffi.unregisterThread s.globalState tid) s.world) tid exitCode exitSignal
  have nodes : nodeIds (s.unregistered tid exitCode exitSignal).globalState =
      (nodeIds s.globalState).eraseP (·.1 = tid) := by
    rw [Debugger.unregistered, marked, ← unregisterThread_nodeIds]
    rfl
  rw [Debugger.owners, contexts, files_markDead, nodes] at member
  rcases List.mem_append.mp member with node | context
  · exact List.mem_append_left _ (List.mem_of_mem_eraseP node)
  · exact List.mem_append_right _ context

theorem Debugger.FilesApart.unregistered (apart : s.FilesApart)
    (exitCode exitSignal : Option Nat) :
    (s.unregistered tid exitCode exitSignal).FilesApart := by
  refine apart.of_owners (fun owner => unregistered_owners) ?_
  obtain ⟨threads, marked⟩ := setThreadAsDead_eq
    (s.withLib (Cffi.unregisterThread s.globalState tid) s.world) tid exitCode exitSignal
  rw [Debugger.unregistered, marked]
  exact (unregisterThread_heap s.globalState tid).2

theorem unregisterThread_filesApart (tid : Int) (exitCode exitSignal : Option Nat) :
    Maintains Debugger.FilesApart (unregisterThread tid exitCode exitSignal : Py K Unit) := by
  intro s apart
  rw [unregisterThread, stateAfter_bind_ok (callLib_run _ s), stateAfter_modify_bind]
  have pops : Maintains Debugger.FilesApart (popHelper tid : Py K Unit) := by
    refine Keeps.get.bind fun _ => Keeps.ite (fun _ => Keeps.modify fun r before => ?_) fun _ =>
      Keeps.throw _
    exact before.of_owners (fun _ member => member) rfl
  exact pops _ (apart.unregistered exitCode exitSignal)

/-! ### Whole runs -/

theorem filesApart_invariant : ThreadInvariant k Debugger.FilesApart where
  of_ids {s t} apart nodes fresh contexts := by
    refine apart.of_owners (fun owner member => ?_) fresh
    rwa [Debugger.owners, nodes, contexts] at member
  registers := registerNewThread_filesApart
  unregisters := unregisterThread_filesApart

theorem filesApart_initial (world : World K) : (Debugger.initial world).FilesApart where
  separate _ there := absurd there List.not_mem_nil
  allocated _ there := absurd there List.not_mem_nil

end Libdebug.Ptrace
