import Libdebug.Ptrace.Signals

/-!
Invariants of the nodes of `t_HEAD` and the thread contexts: a session maintains each one that the
registration of a thread and its end maintain. One of them is that every node has a thread context
that is not dead: a context is made with the node, and where one is marked as dead its node goes.

So the loop of `forward_signal`, which does not advance past a node without a thread context,
ends.
-/

namespace Libdebug.Ptrace

open Libdebug.Foundation Libdebug.Cffi

variable {K : Type}

/-! ### Invariants of threads -/

/-- The condition goes by the nodes and the contexts, and holds on when a thread comes or goes. -/
structure ThreadInvariant (k : Kernel K) (P : Debugger K → Prop) : Prop where
  of_ids : ∀ {s t : Debugger K}, P s → nodeIds t.globalState = nodeIds s.globalState →
    t.globalState.fresh = s.globalState.fresh → t.identities = s.identities → P t
  registers : ∀ threadId, Maintains P (registerNewThread k threadId)
  unregisters : ∀ threadId exitCode exitSignal,
    Maintains P (unregisterThread threadId exitCode exitSignal : Py K Unit)

theorem callLib_run {α : Type} (f : GlobalState → World K → α × GlobalState × World K)
    (s : Debugger K) : (callLib f).run s = .ok (f s.globalState s.world).1
      (s.withLib (f s.globalState s.world).2.1 (f s.globalState s.world).2.2) := rfl

section Sessions

variable {k : Kernel K} {u : UserCode K} {P : Debugger K → Prop} {s t : Debugger K}

/-- Where neither nodes nor identities are touched, the ids stay the same. -/
theorem ids_of_changes {F : Finset Field} (changes : Changes Field.same F s t)
    (apart : .nodes ∉ F ∧ .identities ∉ F) :
    nodeIds t.globalState = nodeIds s.globalState ∧
      t.globalState.fresh = s.globalState.fresh ∧ t.identities = s.identities := by
  obtain ⟨nodes, fresh⟩ : t.globalState.tHead = s.globalState.tHead ∧
      t.globalState.fresh = s.globalState.fresh := Prod.ext_iff.mp (changes .nodes apart.1)
  exact ⟨congrArg (List.map _) nodes, fresh, changes .identities apart.2⟩

namespace ThreadInvariant

variable (invariant : ThreadInvariant k P)

include invariant

theorem frame {F : Finset Field} (holds : P s) (changes : Changes Field.same F s t)
    (apart : .nodes ∉ F ∧ .identities ∉ F) : P t := by
  obtain ⟨nodes, fresh, contexts⟩ := ids_of_changes changes apart
  exact invariant.of_ids holds nodes fresh contexts

theorem of_touches {α : Type} {p : Py K α} {F : Finset Field} (touches : Touches F p)
    (apart : .nodes ∉ F ∧ .identities ∉ F) : Maintains P p :=
  fun s holds => invariant.frame holds (touches s) apart

/-! ### Stops -/

theorem handleChange (st : ThreadStatus) (results : List ThreadStatus) :
    Maintains P (handleChange k u st results) := by
  have ignores {F : Finset Field} (apart : .nodes ∉ F ∧ .identities ∉ F) : Ignores (Implies P) F :=
    fun _ _ changes holds => invariant.frame holds changes apart
  have exits (exitCode exitSignal : Option Nat) :
      Maintains P (handleExit st.tid exitCode exitSignal : Py K Unit) :=
    handleExit_keeps invariant.unregisters _ _ _
  have calls (site : CallSite) (callback : Callback) (threadId : Int) :
      Maintains P (runCallback u site callback threadId) :=
    invariant.of_touches (runCallback_touches site callback threadId) (by decide)
  have handles : Maintains P
      (internalSignalHandler k u st.tid (wstopsig st.status) results st.status) :=
    internalSignalHandler_keeps (ignores (by decide)) calls _ _ _ _ fun _ => invariant.registers
  refine (invariant.of_touches (setForwardSignal_touches true) (by decide)).bind fun _ =>
    Keeps.get.bind fun s => Keeps.ite (fun _ => Keeps.ite (fun _ => Keeps.pure _)
      fun _ => handles.bind fun _ => ?_) fun _ => Keeps.ite (fun _ => exits _ _)
        fun _ => Keeps.ite (fun _ => exits _ _) fun _ => Keeps.pure _
  exact invariant.of_touches (handleStop_touches st _) (by decide)

theorem waitResults (fuel : Nat) : Maintains P (waitResults k fuel) :=
  invariant.of_touches (waitResults_touches fuel) (by decide)

theorem wait (fuel : Nat) : Maintains P (wait k u fuel) := by
  refine (invariant.waitResults fuel).bind fun results => ?_
  refine Keeps.bind (Keeps.modify fun s holds => ?_) fun _ => Keeps.forM fun st _ =>
    invariant.handleChange st results
  exact invariant.frame holds (noteManaged_touches results s) (by decide)

/-! ### Resuming -/

theorem forwardSignalTo (node : Thread) : Maintains P (forwardSignalTo node : Py K Unit) := by
  refine Keeps.get_bind fun s holds => ?_
  split
  · split
    · exact holds
    · rename_i thread found
      dsimp only
      split
      · exact invariant.of_ids holds
          (nodeIds_forward s.globalState node.regs (s.signalNumber thread)) rfl
          (s.identities_withNumber thread 0)
      · exact holds
  · exact holds

theorem forwardSignals : Maintains P (forwardSignals : Py K Unit) := by
  refine Keeps.get.bind fun s => Keeps.ite (fun _ => ?_) fun _ => Keeps.pure _
  refine Keeps.get.bind fun t => Keeps.bind
    (Keeps.forM fun node _ => invariant.forwardSignalTo node)
    fun _ => Keeps.modify fun r holds => ?_
  exact invariant.of_ids holds rfl rfl rfl

/-- A call of the C layer that leaves the ids of the nodes alone. -/
theorem callLib {α : Type} {f : GlobalState → World K → α × GlobalState × World K}
    (ids : ∀ g w, nodeIds (f g w).2.1 = nodeIds g) (fresh : ∀ g w, (f g w).2.1.fresh = g.fresh) :
    Maintains P (callLib f) := fun s holds =>
  invariant.of_ids holds (ids s.globalState s.world) (fresh s.globalState s.world) rfl

theorem raiseErrnoIf (failed : Prop) [Decidable failed] : Maintains P (raiseErrnoIf k failed) :=
  invariant.of_touches (raiseErrnoIf_touches (F := ∅) failed) (by decide)

theorem cont : Maintains P (cont k) := by
  refine invariant.forwardSignals.bind fun _ =>
    (invariant.of_touches applyChanges_touches (by decide)).bind fun _ => ?_
  refine Keeps.bind (Keeps.modify fun s holds => invariant.of_ids holds rfl rfl rfl) fun _ => ?_
  refine Keeps.bind (Keeps.modify fun s holds => invariant.of_ids holds rfl rfl rfl) fun _ => ?_
  refine Keeps.bind (invariant.callLib ?_ ?_) fun _ => invariant.raiseErrnoIf _
  · intro g w
    simp [contAllAndSetBps, nodeIds, Function.comp_def]
  · exact fun _ _ => rfl

theorem step (threadId : Int) : Maintains P (step k threadId) := by
  refine (invariant.of_touches (disableForStep_touches (F := ∅)) (by decide)).bind fun _ =>
    Keeps.bind (invariant.callLib ?_ ?_) fun _ => (invariant.raiseErrnoIf _).bind fun _ =>
      Keeps.modify fun s holds => invariant.of_ids holds rfl rfl rfl
  · exact fun g w => map_takeSignal threadId g.tHead 0
  · exact fun _ _ => rfl

theorem finishBacktrace (fuel : Nat) (threadId : Int) (returnAddress : Nat) :
    Maintains P (finishBacktrace k u fuel threadId returnAddress) := by
  have prepares := invariant.of_touches (prepareFinish_touches (k := k) threadId returnAddress)
    (by decide)
  refine prepares.bind fun ⟨bp, found⟩ => invariant.cont.bind fun _ =>
    (invariant.wait fuel).bind fun _ => Keeps.ite (fun _ => ?_) fun _ => Keeps.pure _
  exact invariant.of_touches (unsetBreakpoint_touches bp true) (by decide)

/-! ### Whole runs -/

theorem program (command : Command) : Maintains P (command.program k u) := by
  cases command with
  | registerNewThread threadId => exact invariant.registers threadId
  | setupParent fuel =>
      exact Keeps.bind (Keeps.modify fun s holds => invariant.of_ids holds rfl rfl rfl) fun _ =>
        (invariant.wait fuel).bind fun _ =>
          Keeps.modify fun s holds => invariant.of_ids holds rfl rfl rfl
  | act action =>
      exact Keeps.modify fun s holds => invariant.frame holds (perform_changes s action) (by decide)
  | breakpoint => exact invariant.of_touches (breakpoint_touches _ _ _ _ _ _) (by decide)
  | handleSyscall number onEnter onExit recursive =>
      exact Keeps.bind ensureAlive_keeps fun _ => invariant.of_touches
        (putHandler_touches (F := ∅) number onEnter onExit recursive) (by decide)
  | catchSignal => exact invariant.of_touches (catchSignal_touches (F := ∅) _ _ _) (by decide)
  | interrupt => exact Keeps.modify fun s holds => invariant.of_ids holds rfl rfl rfl
  | cont => exact invariant.cont
  | step threadId => exact invariant.step threadId
  | stepUntil => exact invariant.of_touches (stepUntil_touches _ _ _ _) (by decide)
  | finish fuel threadId heuristic returnAddress =>
      refine Keeps.ite (fun _ => invariant.of_touches (finishStepMode_touches _ _) (by decide))
        fun _ => Keeps.ite (fun _ => ?_) fun _ => Keeps.throw _
      cases returnAddress with
      | none => exact Keeps.throw _
      | some returnAddress => exact invariant.finishBacktrace fuel threadId returnAddress
  | wait fuel =>
      exact Keeps.bind (invariant.of_touches (setResume_touches (F := ∅) true) (by decide))
        fun _ => invariant.wait fuel

/-- It holds whatever the debugger has been made to do. -/
theorem reachable {world : World K} {commands : List Command} (initially : P (.initial world))
    (reached : (debugging k u).run (.initial world) commands = some s) : P s := by
  apply Machine.run_invariant (motive := P) _ initially Machine.meets_always reached
  intro s command next holds _ stepped
  have same : stateAfter (command.program k u) s = next := Debugger.stateAfter_of_command stepped
  exact same ▸ invariant.program command s holds

end ThreadInvariant

end Sessions

/-! ### Traced threads -/

/-- A thread context that is not dead has the id. -/
def Debugger.Knows (s : Debugger K) (threadId : Int) : Prop :=
  ∃ file, (threadId, false, file) ∈ s.identities

structure Traced (s : Debugger K) : Prop where
  nodes : NodesApart s.globalState
  known : ∀ id ∈ nodeIds s.globalState, s.Knows id.1

section Contexts

variable {k : Kernel K} {s t : Debugger K} {threadId otherId : Int}

theorem Debugger.Knows.found (known : s.Knows threadId) :
    ∃ thread, s.getThreadById threadId = some thread := by
  obtain ⟨file, member⟩ := known
  obtain ⟨thread, here, same⟩ := List.mem_map.mp member
  simp only [Prod.mk.injEq] at same
  have found : (s.getThreadById threadId).isSome = true := by
    rw [Debugger.getThreadById, List.findIdx?_isSome, List.any_eq_true]
    exact ⟨thread, here, by simp [same]⟩
  exact Option.isSome_iff_exists.mp found

theorem Traced.of_ids (traced : Traced s) (ids : nodeIds t.globalState = nodeIds s.globalState)
    (fresh : t.globalState.fresh = s.globalState.fresh) (identities : t.identities = s.identities) :
    Traced t where
  nodes := traced.nodes.of_ids ids fresh
  known id member := by
    rw [ids] at member
    rw [Debugger.Knows, identities]
    exact traced.known id member

theorem Traced.frame {F : Finset Field} (traced : Traced s) (changes : Changes Field.same F s t)
    (apart : .nodes ∉ F ∧ .identities ∉ F) : Traced t := by
  obtain ⟨nodes, fresh, contexts⟩ := ids_of_changes changes apart
  exact traced.of_ids nodes fresh contexts

theorem Touches.traced {α : Type} {p : Py K α} {F : Finset Field} (touches : Touches F p)
    (apart : .nodes ∉ F ∧ .identities ∉ F) : Maintains Traced p :=
  fun s traced => traced.frame (touches s) apart

/-! ### New and dead threads -/

theorem nodeIds_registerThread (g : GlobalState) (w : World K) {id : Int × Ptr}
    (member : id ∈ nodeIds (registerThread k g w threadId).2) :
    id ∈ nodeIds g ∨ id.1 = threadId := by
  simp only [registerThread] at member
  split at member
  · exact .inl member
  · simp only [nodeIds, GlobalState.getregs_tHead, List.map_cons, List.mem_cons] at member
    rcases member with rfl | old
    · exact .inr rfl
    · exact .inl old

theorem identities_insertNewThread (file : Ptr) :
    (s.insertNewThread threadId file).identities = s.identities ++ [(threadId, false, file)] :=
  List.map_append

theorem registerNewThread_traced (threadId : Int) :
    Maintains Traced (registerNewThread k threadId) := by
  intro s traced
  rw [registerNewThread, stateAfter_bind_ok (callLib_run _ s), stateAfter_modify_bind]
  have inserted : Traced ((s.withLib (registerThread k s.globalState s.world threadId).2
      s.world).insertNewThread threadId (registerThread k s.globalState s.world threadId).1) := by
    refine ⟨traced.nodes.registerThread s.world threadId, ?_⟩
    intro id member
    rw [Debugger.Knows, identities_insertNewThread]
    rcases nodeIds_registerThread s.globalState s.world member with old | new
    · obtain ⟨file, there⟩ := traced.known id old
      exact ⟨file, List.mem_append_left _ there⟩
    · rw [new]
      exact ⟨_, List.mem_append_right _ (List.mem_singleton.mpr rfl)⟩
  have installs : Maintains Traced (do
      let s ← get
      (s.breakpoints.values.filter fun bp => (s.objects bp).hardware).forM
        (installBreakpoint k threadId)) :=
    Keeps.get.bind fun s => Keeps.forM fun bp _ =>
      (installBreakpoint_touches _ bp).traced (by decide)
  exact installs _ inserted

/-- A thread context of another id is left alone. -/
theorem knows_setThreadAsDead {exitCode exitSignal : Option Nat} (different : otherId ≠ threadId)
    (known : s.Knows otherId) : (s.setThreadAsDead threadId exitCode exitSignal).Knows otherId := by
  obtain ⟨file, member⟩ := known
  unfold Debugger.setThreadAsDead
  split
  · exact ⟨file, member⟩
  · rename_i dead found
    obtain ⟨bound, marked, -⟩ := List.findIdx?_eq_some_iff_getElem.mp found
    obtain ⟨index, here⟩ := List.mem_iff_getElem?.mp member
    simp only [Debugger.identities, List.getElem?_map, Option.map_eq_some_iff] at here
    obtain ⟨thread, there, same⟩ := here
    have other : dead ≠ index := by
      rintro rfl
      rw [List.getElem?_eq_getElem bound, Option.some.injEq] at there
      have id : thread.threadId = otherId := congrArg Prod.fst same
      simp only [there, id, decide_eq_true_eq] at marked
      exact different marked
    refine ⟨file, List.mem_iff_getElem?.mpr ⟨index, ?_⟩⟩
    simp only [Debugger.identities, Debugger.updateThread, List.getElem?_map, List.getElem?_modify,
      if_neg other, there, Option.map_some, Option.map_eq_map, same]

theorem nodeIds_unregisterThread {g : GlobalState} (apart : NodesApart g) {id : Int × Ptr}
    (member : id ∈ nodeIds (Cffi.unregisterThread g threadId)) :
    id ∈ nodeIds g ∧ id.1 ≠ threadId := by
  unfold Cffi.unregisterThread at member
  split at member
  · rename_i absent
    refine ⟨member, ?_⟩
    obtain ⟨node, there, rfl⟩ := List.mem_map.mp member
    simpa using List.find?_eq_none.mp absent node there
  · rename_i gone found
    have goneId : gone.tid = threadId := by simpa using List.find?_some found
    have goneMember := List.mem_of_find?_eq_some found
    obtain ⟨node, there, rfl⟩ := List.mem_map.mp member
    have old := List.mem_of_mem_erase there
    refine ⟨List.mem_map_of_mem old, ?_⟩
    intro same
    have one : node = gone := List.inj_on_of_nodup_map apart.tids old goneMember
      (same.trans goneId.symm)
    subst one
    exact absurd there (List.Nodup.not_mem_erase apart.tids.of_map)

theorem unregisterThread_traced (threadId : Int) (exitCode exitSignal : Option Nat) :
    Maintains Traced (unregisterThread threadId exitCode exitSignal : Py K Unit) := by
  intro s traced
  have called : (callLib fun g w => ((), Cffi.unregisterThread g threadId, w)).run s =
      .ok () (s.withLib (Cffi.unregisterThread s.globalState threadId) s.world) := rfl
  rw [unregisterThread, stateAfter_bind_ok called, stateAfter_modify_bind]
  have library : ((s.withLib (Cffi.unregisterThread s.globalState threadId)
      s.world).setThreadAsDead threadId exitCode exitSignal).globalState =
        Cffi.unregisterThread s.globalState threadId := by
    unfold Debugger.setThreadAsDead
    split <;> rfl
  have marked : Traced ((s.withLib (Cffi.unregisterThread s.globalState threadId)
      s.world).setThreadAsDead threadId exitCode exitSignal) := by
    constructor
    · rw [library]
      exact traced.nodes.unregisterThread threadId
    intro id member
    rw [library] at member
    obtain ⟨old, different⟩ := nodeIds_unregisterThread traced.nodes member
    exact knows_setThreadAsDead different (traced.known id old)
  exact (popHelper_touches threadId).traced (by decide) _ marked

end Contexts

/-! ### Whole runs -/

section Runs

variable {k : Kernel K} {u : UserCode K}

theorem traced_invariant : ThreadInvariant k Traced where
  of_ids := Traced.of_ids
  registers := registerNewThread_traced
  unregisters := unregisterThread_traced

theorem program_traced (command : Command) : Maintains Traced (command.program k u) :=
  traced_invariant.program command

theorem traced_initial (world : World K) : Traced (.initial world) where
  nodes := nodesApart_empty
  known _ member := absurd member List.not_mem_nil

/-- Every node has a live thread context, whatever the debugger has been made to do. -/
theorem reachable_traced {world : World K} {commands : List Command} {s : Debugger K}
    (reached : (debugging k u).run (.initial world) commands = some s) : Traced s :=
  traced_invariant.reachable (traced_initial world) reached

end Runs

end Libdebug.Ptrace
