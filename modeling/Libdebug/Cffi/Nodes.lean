import Libdebug.Cffi.Session
import Mathlib.Data.List.Nodup

/-!
The nodes of the list of threads are told apart by their ids and by the register files
they embed, in every state of a session.
-/

namespace Libdebug.Cffi

open Libdebug.Foundation

variable {K : Type} {k : Kernel K} {pid : Int} {g h : GlobalState}

/-- The nodes of the list of threads are told apart by their ids and their files. -/
structure NodesApart (g : GlobalState) : Prop where
  tids : (g.tHead.map (·.tid)).Nodup
  files : (g.tHead.map (·.regs)).Nodup
  allocated : ∀ t ∈ g.tHead, t.regs < g.fresh

/-- What tells the nodes apart. -/
def nodeIds (g : GlobalState) : List (Int × Ptr) := g.tHead.map fun t => (t.tid, t.regs)

namespace NodesApart

theorem of_ids (apart : NodesApart g) (ids : nodeIds h = nodeIds g) (fresh : h.fresh = g.fresh) :
    NodesApart h := by
  have tids : h.tHead.map (·.tid) = g.tHead.map (·.tid) := by
    simpa [nodeIds, Function.comp_def] using congrArg (List.map Prod.fst) ids
  have files : h.tHead.map (·.regs) = g.tHead.map (·.regs) := by
    simpa [nodeIds, Function.comp_def] using congrArg (List.map Prod.snd) ids
  refine ⟨tids ▸ apart.tids, files ▸ apart.files, fun t member => ?_⟩
  have listed : t.regs ∈ g.tHead.map (·.regs) := files ▸ List.mem_map_of_mem member
  obtain ⟨old, there, same⟩ := List.mem_map.mp listed
  rw [fresh, ← same]
  exact apart.allocated old there

theorem congr (apart : NodesApart g) (nodes : h.tHead = g.tHead) (fresh : h.fresh = g.fresh) :
    NodesApart h :=
  apart.of_ids (by rw [nodeIds, nodes, nodeIds]) fresh

/-- Nodes with different ids have different files. -/
theorem regs_ne (apart : NodesApart g) {t other : Thread} (member : t ∈ g.tHead)
    (otherMember : other ∈ g.tHead) (different : t.tid ≠ other.tid) : t.regs ≠ other.regs := by
  intro same
  have equal := List.inj_on_of_nodup_map apart.files member otherMember same
  exact different (congrArg Thread.tid equal)

theorem registerThread (apart : NodesApart g) (w : World K) (tid : Int) :
    NodesApart (Cffi.registerThread k g w tid).2 := by
  simp only [Cffi.registerThread]
  split
  · exact apart
  · rename_i absent
    simp only [List.find?_eq_none, decide_eq_true_eq] at absent
    refine ⟨?_, ?_, ?_⟩
    · simp only [GlobalState.getregs_tHead, List.map_cons, List.nodup_cons]
      exact ⟨by simpa using absent, apart.tids⟩
    · simp only [GlobalState.getregs_tHead, List.map_cons, List.nodup_cons]
      refine ⟨fun member => ?_, apart.files⟩
      obtain ⟨t, old, same⟩ := List.mem_map.mp member
      exact absurd same (Nat.ne_of_lt (apart.allocated t old))
    · simp only [GlobalState.getregs_tHead, GlobalState.getregs_fresh, List.forall_mem_cons]
      exact ⟨Nat.lt_succ_self _, fun t old => Nat.lt_succ_of_lt (apart.allocated t old)⟩

theorem unregisterThread (apart : NodesApart g) (tid : Int) :
    NodesApart (Cffi.unregisterThread g tid) := by
  unfold Cffi.unregisterThread
  split
  · exact apart
  · rename_i t _
    have fewer : (g.tHead.erase t).Sublist g.tHead := List.erase_sublist
    exact ⟨apart.tids.sublist (fewer.map _), apart.files.sublist (fewer.map _),
      fun t member => apart.allocated t (fewer.subset member)⟩

end NodesApart

theorem nodeIds_forward (g : GlobalState) (file : Ptr) (signal : Nat) :
    nodeIds (g.forward file signal) = nodeIds g := by
  simp only [nodeIds, GlobalState.forward, List.map_map]
  refine List.map_congr_left fun t _ => ?_
  simp only [Function.comp_apply]
  split <;> rfl

theorem map_takeSignal (tid : Int) (threads : List Thread) (signal : Nat) :
    (takeSignal tid threads signal).2.map (fun t => (t.tid, t.regs)) =
      threads.map fun t => (t.tid, t.regs) := by
  induction threads generalizing signal with
  | nil => rfl
  | cons t rest ih =>
      simp only [takeSignal]
      split <;> simp [ih]

/-- No call registers a thread twice, or gives two nodes one file. -/
theorem Session.call_nodesApart {s next : Session K} {call : Call} (apart : NodesApart s.g)
    (called : s.call k pid call = some next) : NodesApart next.g := by
  cases call with
  | registerThread tid =>
      cases called
      exact apart.registerThread s.w tid
  | unregisterThread tid =>
      cases called
      exact apart.unregisterThread tid
  | registerBreakpoint address =>
      rcases registerBreakpoint_cases s.g s.w address with
          ⟨b, -, done⟩ | ⟨b, -, -, -, -, done⟩ <;>
        simp only [Session.call, done] at called <;> cases called <;>
        exact apart.congr rfl rfl
  | enableBreakpoint address =>
      obtain ⟨⟨g, w⟩, switched, rfl⟩ := Option.map_eq_some_iff.mp called
      rcases enableBreakpoint_cases switched with ⟨-, rfl, -⟩ | ⟨b, -, rfl, -⟩ <;>
        exact apart.congr rfl rfl
  | disableBreakpoint address =>
      obtain ⟨⟨g, w⟩, switched, rfl⟩ := Option.map_eq_some_iff.mp called
      rcases disableBreakpoint_cases switched with ⟨-, rfl, -⟩ | ⟨b, -, rfl, -⟩ <;>
        exact apart.congr rfl rfl
  | unregisterBreakpoint | freeBreakpoints | writeRegs | ptracePokedata =>
      cases called
      exact apart.congr rfl rfl
  | forward file signal =>
      cases called
      exact apart.of_ids (nodeIds_forward s.g file signal) rfl
  | singlestep tid =>
      obtain ⟨signal, w, done, -⟩ := singlestep_spec (k := k) s.g s.w tid
      simp only [Session.call, done] at called
      cases called
      exact apart.of_ids (map_takeSignal tid s.g.tHead 0) rfl
  | contAllAndSetBps =>
      cases called
      exact apart.of_ids (by simp [nodeIds, Function.comp_def]) rfl
  | stepUntil fuel tid addr maxSteps =>
      have performed := stepUntil_performs (k := k) fuel s.g s.w tid addr maxSteps
      simp only [Session.call] at called
      split at called <;> cases called
      rename_i result
      rw [result] at performed
      exact apart.congr performed.tHead performed.fresh
  | steppingFinish fuel tid =>
      obtain ⟨g, w, performed, done⟩ := steppingFinish_spec (k := k) fuel s.g s.w tid
      rcases done with done | done | done <;> simp only [Session.call, done] at called <;>
        cases called <;> exact apart.congr performed.tHead performed.fresh
  | waitAllAndUpdateRegs fuel =>
      obtain ⟨g, w, performed, done⟩ := waitAllAndUpdateRegs_spec (k := k) fuel s.g s.w pid
      rcases done with done | done | ⟨list, done⟩ <;> simp only [Session.call, done] at called <;>
        cases called <;> exact apart.congr performed.tHead performed.fresh

theorem nodesApart_empty : NodesApart .empty where
  tids := List.nodup_nil
  files := List.nodup_nil
  allocated := by simp [GlobalState.empty]

theorem session_nodesApart {w : World K} {s : Session K} {calls : List Call}
    (reached : (session k pid).run (.initial w) calls = some s) : NodesApart s.g :=
  Machine.run_invariant (motive := fun s => NodesApart s.g)
    (fun _ _ _ apart _ called => Session.call_nodesApart apart called)
    nodesApart_empty Machine.meets_always reached

end Libdebug.Cffi
