import Libdebug.Ptrace.TracedThreads

/-!
Sending a signal to a stopped thread: the setter of `ThreadContext.signal`, and the next
`cont`.

The setter resolves the name of the number it overwrites, for a message to the log. That
number is the one of the last stop of the thread, which is not always a signal: the stop at a
system call has `SIGTRAP | 0x80`.
-/

namespace Libdebug.Ptrace

open Libdebug.Foundation Libdebug.Cffi

variable {K : Type}

/-- The setter of `ThreadContext.signal`, given a number. -/
def assignSignal (thread : Nat) (signal : Nat) : Py K Unit := do
  let s ← get
  if s.signalNumber thread ≠ 0 then
    resolveSignalName (s.signalNumber thread)
    resolveSignalName signal
  modify (·.setSignal thread signal)

/-- The signals that a thread was resumed with by `cont`, newest first. -/
def contSignals (tid : Int) (log : List Event) : List Nat :=
  log.filterMap fun
    | .resumed resumed signal _ => if resumed = tid then some signal else none
    | _ => none

/-- The kernel resumes the thread when it is asked to. -/
def Resumable (k : Kernel K) (tid : Int) : Prop :=
  ∀ mem os syscalls signal, (k.cont mem os syscalls tid signal).isSome = true

/-- The thread has a node, and the thread context is found by its id. -/
structure Debugger.Live (s : Debugger K) (thread : Nat) (tid : Int) : Prop where
  found : s.getThreadById tid = some thread
  node : tid ∈ s.globalState.tHead.map (·.tid)

/-- The signal is assigned without an exception, and the `cont` that comes next resumes the
thread, once and with that signal. -/
def SendsSignal (k : Kernel K) (u : UserCode K) (s : Debugger K) (thread : Nat) (tid : Int)
    (signal : Nat) : Prop :=
  ∃ t, (assignSignal thread signal).run s = .ok () t ∧
    ∃ next, t.command k u .cont = some next ∧
      contSignals tid next.world.log = signal :: contSignals tid t.world.log

section Assigning

variable {s t : Debugger K} {thread signal : Nat}

theorem hasSignalName_pos {number : Nat} (named : hasSignalName number = true) : number ≠ 0 := by
  rintro rfl
  exact absurd named (by decide)

/-- The setter raises where the number it overwrites has no name. -/
theorem assignSignal_ok (named : hasSignalName signal = true) :
    (assignSignal thread signal).run s = .ok () t ↔
      (s.signalNumber thread = 0 ∨ hasSignalName (s.signalNumber thread) = true) ∧
        t = s.setSignal thread signal := by
  have resolved : (resolveSignalName signal).run s = .ok () s := by
    rw [resolveSignalName, if_pos named]
    rfl
  simp only [assignSignal, EStateM.run_bind, EStateM.run_get]
  by_cases unset : s.signalNumber thread = 0
  · simp only [unset, ne_eq, not_true, if_false, true_or, true_and]
    exact ⟨fun assigned => by cases assigned; rfl, fun same => by rw [same]; rfl⟩
  · by_cases known : hasSignalName (s.signalNumber thread) = true
    · have first : (resolveSignalName (s.signalNumber thread)).run s = .ok () s := by
        rw [resolveSignalName, if_pos known]
        rfl
      simp only [ne_eq, unset, not_false_eq_true, if_true, EStateM.run_bind, first, resolved, known,
        or_true, true_and]
      exact ⟨fun assigned => by cases assigned; rfl, fun same => by rw [same]; rfl⟩
    · have first : (resolveSignalName (s.signalNumber thread)).run s =
          .error (.raised (.valueError s!"Signal {s.signalNumber thread} not found.")) s := by
        rw [resolveSignalName, if_neg known]
        rfl
      simp only [ne_eq, unset, not_false_eq_true, if_true, EStateM.run_bind, first, known, false_or,
        Bool.false_eq_true, false_and, reduceCtorEq]

theorem setSignal_eq (here : (s.threads[thread]?).isSome = true) :
    ∃ t ∈ s.threads[thread]?, s.setSignal thread signal =
      { s.withNumber thread signal with
        resumeContext :=
          { s.resumeContext with
            threadsWithSignalsToForward :=
              s.resumeContext.threadsWithSignalsToForward ++ [t.threadId] }
        world := s.world.record (.chose t.threadId signal) } := by
  obtain ⟨t, found⟩ := Option.isSome_iff_exists.mp here
  refine ⟨t, found, ?_⟩
  simp only [Debugger.setSignal, found]
  rfl

end Assigning

/-! ### The loop of `forward_signal` -/

section Forwarding

variable {s t : Debugger K} {thread signal : Nat} {tid : Int} {node : Thread}

/-- What is done for a node: nothing, or the number of its thread context goes there. -/
theorem forwardSignalTo_cases (returned : (forwardSignalTo node).run s = .ok () t) :
    t = s ∧ (node.tid ∉ s.resumeContext.threadsWithSignalsToForward ∨
        ∃ other, s.getThreadById node.tid = some other ∧
          (s.signalNumber other = 0 ∨ s.signalNumber other ∈ s.signalsToBlock)) ∨
      ∃ other, s.getThreadById node.tid = some other ∧
        t = { s.withNumber other 0 with
          globalState := s.globalState.forward node.regs (s.signalNumber other) } ∧
        node.tid ∈ s.resumeContext.threadsWithSignalsToForward ∧
        s.signalNumber other ≠ 0 ∧ s.signalNumber other ∉ s.signalsToBlock := by
  obtain ⟨_, _, read, returned⟩ := ok_of_bind returned
  cases read
  split at returned
  · rename_i listed
    split at returned
    · cases returned
    · rename_i other found
      dsimp only at returned
      split at returned
      · rename_i allowed
        cases returned
        exact .inr ⟨other, found, rfl, listed, allowed.1, allowed.2⟩
      · rename_i kept
        cases returned
        refine .inl ⟨rfl, .inr ⟨other, found, ?_⟩⟩
        by_cases unset : s.signalNumber other = 0
        · exact .inl unset
        · exact .inr (by_contra fun allowed => kept ⟨unset, allowed⟩)
  · rename_i unlisted
    cases returned
    exact .inl ⟨rfl, .inl unlisted⟩

/-- No node is left without being advanced past. -/
theorem forwardSignalTo_returns (known : s.Knows node.tid) :
    ∃ t, (forwardSignalTo node).run s = .ok () t ∧ t.identities = s.identities := by
  obtain ⟨other, found⟩ := known.found
  have same := s.identities_withNumber other 0
  simp only [forwardSignalTo, EStateM.run_bind, EStateM.run_get, found]
  split
  · split
    · exact ⟨_, rfl, same⟩
    · exact ⟨_, rfl, rfl⟩
  · exact ⟨_, rfl, rfl⟩

/-- The loop ends. -/
theorem forwardSignals_returns (traced : Traced s) : ∃ t, forwardSignals.run s = .ok () t := by
  have turn : ∀ node ∈ s.globalState.tHead, ∀ r : Debugger K, r.identities = s.identities →
      ∃ t, (forwardSignalTo node).run r = .ok ⟨⟩ t ∧ t.identities = s.identities := by
    intro node member r same
    have known : r.Knows node.tid := by
      rw [Debugger.Knows, same]
      exact traced.known _ (List.mem_map_of_mem member)
    obtain ⟨t, returned, kept⟩ := forwardSignalTo_returns known
    exact ⟨t, returned, kept.trans same⟩
  obtain ⟨t, ended, -⟩ := forM_returns turn rfl
  simp only [forwardSignals, EStateM.run_bind, EStateM.run_get]
  split
  · simp only [forwardSignal, EStateM.run_bind, EStateM.run_get, ended]
    exact ⟨_, rfl⟩
  · exact ⟨_, rfl⟩

/-- While the loop has the nodes `rest` before it: the number of the thread waits in its
context, or has been stored in its node. -/
structure Storing (s : Debugger K) (thread signal : Nat) (tid : Int) (rest : List Thread)
    (t : Debugger K) : Prop where
  ids : nodeIds t.globalState = nodeIds s.globalState
  identities : t.identities = s.identities
  listed : tid ∈ t.resumeContext.threadsWithSignalsToForward
  allowed : signal ∉ t.signalsToBlock
  members : ∀ node ∈ rest, (node.tid, node.regs) ∈ nodeIds s.globalState
  distinct : (rest.map (·.tid)).Nodup
  waits : tid ∈ rest.map (·.tid) → t.signalNumber thread = signal
  stored : tid ∉ rest.map (·.tid) →
    ∃ node ∈ t.globalState.tHead, node.tid = tid ∧ node.signalToForward = signal

theorem storing_step (traced : Traced s) (found : s.getThreadById tid = some thread)
    (nonzero : signal ≠ 0) {rest : List Thread} {r : Debugger K}
    (storing : Storing s thread signal tid (node :: rest) r)
    (returned : (forwardSignalTo node).run r = .ok () t) :
    Storing s thread signal tid rest t := by
  obtain ⟨notAfter, distinct⟩ := List.nodup_cons.mp storing.distinct
  have member := storing.members node List.mem_cons_self
  have members : ∀ other ∈ rest, (other.tid, other.regs) ∈ nodeIds s.globalState :=
    fun other there => storing.members other (List.mem_cons_of_mem _ there)
  have foundHere : r.getThreadById tid = some thread :=
    (Debugger.getThreadById_of_identities storing.identities tid).trans found
  by_cases here : node.tid = tid
  · -- the node of the thread, whose number has been waiting
    subst here
    have waits := storing.waits List.mem_cons_self
    rcases forwardSignalTo_cases returned with ⟨-, unlisted | ⟨other, foundOther, kept⟩⟩ |
      ⟨other, foundOther, rfl, -⟩
    · exact absurd storing.listed unlisted
    · rw [foundHere] at foundOther
      cases foundOther
      rw [waits] at kept
      exact (kept.elim nonzero storing.allowed).elim
    · rw [foundHere] at foundOther
      cases foundOther
      refine ⟨(nodeIds_forward ..).trans storing.ids,
        (r.identities_withNumber thread 0).trans storing.identities, storing.listed,
        storing.allowed, members, distinct, fun later => absurd later notAfter, fun _ => ?_⟩
      rw [← storing.ids] at member
      obtain ⟨old, there, same⟩ := List.mem_map.mp member
      simp only [Prod.mk.injEq] at same
      refine ⟨{ old with signalToForward := signal },
        List.mem_map.mpr ⟨old, there, ?_⟩, same.1, rfl⟩
      rw [if_pos same.2, waits]
  · have elsewhere : tid ∈ (node :: rest).map (·.tid) ↔ tid ∈ rest.map (·.tid) := by
      simp only [List.map_cons, List.mem_cons, Ne.symm here, false_or]
    rcases forwardSignalTo_cases returned with ⟨rfl, -⟩ | ⟨other, foundOther, rfl, -⟩
    · exact ⟨storing.ids, storing.identities, storing.listed, storing.allowed, members, distinct,
        fun later => storing.waits (elsewhere.mpr later),
        fun before => storing.stored (mt elsewhere.mp before)⟩
    · have different := Debugger.getThreadById_ne foundHere foundOther here
      refine ⟨(nodeIds_forward ..).trans storing.ids,
        (r.identities_withNumber other 0).trans storing.identities, storing.listed,
        storing.allowed, members, distinct, fun later => ?_, fun before => ?_⟩
      · exact (Debugger.signalNumber_withNumber_other (Ne.symm different) 0).trans
          (storing.waits (elsewhere.mpr later))
      · obtain ⟨old, there, sameId, stored⟩ := storing.stored (mt elsewhere.mp before)
        refine ⟨old, List.mem_map.mpr ⟨old, there, if_neg fun sameFile => ?_⟩, sameId, stored⟩
        -- the two nodes have different register files
        have oldId : (old.tid, old.regs) ∈ nodeIds s.globalState :=
          storing.ids ▸ List.mem_map_of_mem there
        obtain ⟨first, firstMember, firstSame⟩ := List.mem_map.mp oldId
        obtain ⟨second, secondMember, secondSame⟩ := List.mem_map.mp member
        simp only [Prod.mk.injEq] at firstSame secondSame
        refine traced.nodes.regs_ne firstMember secondMember ?_ ?_
        · rw [firstSame.1, secondSame.1, sameId]
          exact Ne.symm here
        · rw [firstSame.2, secondSame.2, sameFile]

/-- A number that is set on a thread in the list goes to its node. -/
theorem forwardSignals_stores (traced : Traced s) (live : s.Live thread tid)
    (listed : tid ∈ s.resumeContext.threadsWithSignalsToForward)
    (number : s.signalNumber thread = signal) (nonzero : signal ≠ 0)
    (allowed : signal ∉ s.signalsToBlock) (returned : forwardSignals.run s = .ok () t) :
    nodeIds t.globalState = nodeIds s.globalState ∧
      ∃ node ∈ t.globalState.tHead, node.tid = tid ∧ node.signalToForward = signal := by
  obtain ⟨_, _, read, returned⟩ := ok_of_bind returned
  cases read
  rw [if_pos (List.ne_nil_of_mem listed)] at returned
  obtain ⟨_, _, read, returned⟩ := ok_of_bind returned
  cases read
  obtain ⟨_, looped, ended, returned⟩ := ok_of_bind returned
  cases returned
  have initially : Storing s thread signal tid s.globalState.tHead s :=
    ⟨rfl, rfl, listed, allowed, fun node => List.mem_map_of_mem, traced.nodes.tids,
      fun _ => number, fun absent => absurd live.node absent⟩
  have afterwards : Storing s thread signal tid [] looped :=
    forM_ok (P := Storing s thread signal tid)
      (fun node rest r next storing stepped =>
        storing_step traced live.found nonzero storing stepped)
      initially ended
  exact ⟨afterwards.ids, afterwards.stored List.not_mem_nil⟩

end Forwarding

/-! ### Resuming -/

section Resuming

variable {k : Kernel K} {u : UserCode K} {tid : Int}

theorem contSignals_injections (tid : Int) (log : List Event) :
    contSignals tid (injections log) = contSignals tid log := by
  simp only [contSignals, injections, List.filterMap_filterMap]
  apply List.filterMap_congr
  intro event _
  cases event <;> rfl

/-- To step over breakpoints resumes no thread by `cont`. -/
theorem prepareForRun_contSignals (tid : Int) (g : GlobalState) (w : World K) :
    contSignals tid (prepareForRun k g w).2.log = contSignals tid w.log := by
  obtain ⟨next, performed, ended⟩ := prepareForRun_spec (k := k) g w
  have stepped : contSignals tid next.log = contSignals tid w.log := by
    refine performed.filterMap_log _ fun request event ok noted => ?_
    cases request <;> cases event <;> first | exact noted.elim | rfl | skip
    exact (ok.elim id id : False).elim
  rcases ended with gaveUp | ⟨status, -, armed⟩
  · rw [gaveUp]
    exact stepped
  · rw [armed, armBreakpoints_eq]
    exact stepped

/-- The loop resumes the thread of a node once, with the signal of the node. -/
theorem resumeLoop_contSignals (resumable : Resumable k tid) {threads : List Thread}
    (distinct : (threads.map (·.tid)).Nodup) (syscalls : Bool) (w : World K) :
    contSignals tid
        (threads.foldl (fun w t => w.cont k syscalls t.tid t.signalToForward) w).log =
      ((threads.find? (·.tid = tid)).map (·.signalToForward)).toList ++ contSignals tid w.log := by
  induction threads generalizing w with
  | nil => rfl
  | cons t rest ih =>
      obtain ⟨others, distinct⟩ := List.nodup_cons.mp distinct
      rw [List.foldl_cons, ih distinct]
      by_cases here : t.tid = tid
      · have absent : rest.find? (·.tid = tid) = none := by
          refine List.find?_eq_none.mpr fun other member same => others ?_
          exact List.mem_map.mpr ⟨other, member, (of_decide_eq_true same).trans here.symm⟩
        have accepted := resumable w.mem w.os syscalls t.signalToForward
        obtain ⟨⟨mem, os⟩, done⟩ := Option.isSome_iff_exists.mp accepted
        rw [List.find?_cons_of_pos (by simp [here]), absent, here]
        simp [World.cont, done, contSignals]
      · rw [List.find?_cons_of_neg (by simp [here])]
        congr 1
        unfold World.cont
        split
        · rfl
        · simp [contSignals, here]

theorem contAllAndSetBps_contSignals (resumable : Resumable k tid) {g : GlobalState}
    (distinct : (g.tHead.map (·.tid)).Nodup) {node : Thread} (member : node ∈ g.tHead)
    (here : node.tid = tid) (w : World K) :
    contSignals tid (contAllAndSetBps k g w).2.2.log =
      node.signalToForward :: contSignals tid w.log := by
  have found : g.tHead.find? (·.tid = tid) = some node := by
    rcases first : g.tHead.find? (·.tid = tid) with _ | other
    · exact absurd here (by simpa using List.find?_eq_none.mp first node member)
    · have same : other.tid = tid := by simpa using List.find?_some first
      have one : other = node := List.inj_on_of_nodup_map distinct (List.mem_of_find?_eq_some first)
        member (same.trans here.symm)
      exact first.trans (congrArg some one)
  rw [contAllAndSetBps, resumeLoop_contSignals resumable distinct, found,
    prepareForRun_contSignals]
  rfl

variable {s t : Debugger K} {thread signal : Nat}

/-- Neither part of `cont` before the tracee is resumed resumes a thread. -/
theorem beforeResuming_contSignals (tid : Int) :
    Leaves (fun s => contSignals tid s.world.log)
      (forwardSignals >>= fun _ => applyChanges k : Py K Unit) := by
  have touches : Touches {.nodes, .threads, .pending, .table, .helpers, .breakpoints, .objects}
      (forwardSignals >>= fun _ => applyChanges k : Py K Unit) :=
    (forwardSignals_touches.mono (by decide)).bind fun _ => applyChanges_touches.mono (by decide)
  intro s
  have injected : injections _ = injections _ := touches s .injections (by decide)
  rw [Same, ← contSignals_injections, injected, contSignals_injections]

/-- The call that resumes the tracee; an error number is raised after it. -/
theorem resume_run (s : Debugger K) : ∃ next,
    ((callLib (contAllAndSetBps k) >>= fun result => raiseErrnoIf k (result < 0)).run s =
        .ok () next ∨
      ∃ e, (callLib (contAllAndSetBps k) >>= fun result => raiseErrnoIf k (result < 0)).run s =
        .error (.raised e) next) ∧
      next = s.withLib (contAllAndSetBps k s.globalState s.world).2.1
        (contAllAndSetBps k s.globalState s.world).2.2 := by
  have called : (callLib (contAllAndSetBps k)).run s =
      .ok (contAllAndSetBps k s.globalState s.world).1
        (s.withLib (contAllAndSetBps k s.globalState s.world).2.1
          (contAllAndSetBps k s.globalState s.world).2.2) := rfl
  simp only [EStateM.run_bind, called, raiseErrnoIf, EStateM.run_get]
  split
  · exact ⟨_, .inr ⟨_, rfl⟩, rfl⟩
  · exact ⟨_, .inl rfl, rfl⟩

/-- `cont`, where it gets to resuming the tracee: the signals of the nodes are used up. -/
theorem command_cont (returned : (forwardSignals >>= fun _ => applyChanges k).run s = .ok () t) :
    ∃ next, s.command k u .cont = some next ∧
      next.world = (contAllAndSetBps k { t.globalState with
        handleSyscallEnabled := handleSyscallEnabled t.handledSyscalls.values } t.world).2.2 ∧
      next.resumeContext = t.resumeContext ∧ Flushed next.globalState.tHead := by
  obtain ⟨_, forwarded, first, second⟩ := ok_of_bind returned
  obtain ⟨next, ended, state⟩ := resume_run (k := k)
    { t with
      applied := t.snapshot :: t.applied
      globalState := { t.globalState with
        handleSyscallEnabled := handleSyscallEnabled t.handledSyscalls.values } }
  have unfolded : (cont k).run s = (callLib (contAllAndSetBps k) >>= fun result =>
      raiseErrnoIf k (result < 0)).run { t with
        applied := t.snapshot :: t.applied
        globalState := { t.globalState with
          handleSyscallEnabled := handleSyscallEnabled t.handledSyscalls.values } } := by
    rw [cont, EStateM.run_bind, first]
    dsimp only
    rw [EStateM.run_bind, second]
    rfl
  refine ⟨next, ?_, ?_, ?_, ?_⟩
  · rw [Debugger.command, Command.program, unfolded]
    rcases ended with returned | ⟨e, raised⟩
    · rw [returned]
    · rw [raised]
  · rw [state]
    rfl
  · rw [state]
    rfl
  · rw [state]
    intro node member
    obtain ⟨old, -, rfl⟩ := List.mem_map.mp member
    rfl

/-- `cont`, where it raises before -/
theorem command_cont_raised {e : Abort} {next : Debugger K}
    (raised : (forwardSignals >>= fun _ => applyChanges k).run s = .error e t)
    (commanded : s.command k u .cont = some next) :
    contSignals tid next.world.log = contSignals tid s.world.log := by
  have unfolded : (cont k).run s = .error e t := by
    rw [EStateM.run_bind] at raised
    rw [cont, EStateM.run_bind]
    split at raised
    · rw [EStateM.run_bind, raised]
    · cases raised
      rfl
  have same : t = next := by
    rw [Debugger.command, Command.program, unfolded] at commanded
    cases e with
    | raised error => exact Option.some.inj commanded
    | crash | hang => cases commanded
  have kept := (beforeResuming_contSignals (k := k) tid).of_error raised
  exact same ▸ kept

/-- The thread is resumed with the signal that `forward_signal` leaves in its node. -/
theorem cont_resumes (resumable : Resumable k tid) (traced : Traced s)
    (stored : ∀ forwarded, forwardSignals.run s = .ok () forwarded →
      nodeIds forwarded.globalState = nodeIds s.globalState ∧
        ∃ node ∈ forwarded.globalState.tHead, node.tid = tid ∧ node.signalToForward = signal)
    (applies : s.applies k = true) :
    ∃ next, s.command k u .cont = some next ∧
      contSignals tid next.world.log = signal :: contSignals tid s.world.log := by
  unfold Debugger.applies at applies
  split at applies
  · rename_i t returned
    obtain ⟨_, forwarded, first, second⟩ := ok_of_bind returned
    obtain ⟨ids, node, member, here, carries⟩ := stored forwarded first
    have nodes : t.globalState.tHead = forwarded.globalState.tHead :=
      congrArg Prod.fst (applyChanges_touches.of_ok second .nodes (by decide))
    have distinct : (t.globalState.tHead.map (·.tid)).Nodup := by
      have tids := congrArg (List.map Prod.fst) ids
      simp only [nodeIds, List.map_map, Function.comp_def] at tids
      rw [nodes, tids]
      exact traced.nodes.tids
    obtain ⟨next, commanded, world, -⟩ := command_cont (u := u) returned
    refine ⟨next, commanded, ?_⟩
    have before : contSignals tid t.world.log = contSignals tid s.world.log :=
      (beforeResuming_contSignals tid).of_ok returned
    rw [world, ← carries, ← before]
    refine contAllAndSetBps_contSignals resumable ?_ ?_ here _
    · exact distinct
    · exact nodes.symm ▸ member
  · cases applies

/-- A number that is set on a thread in the list is the signal that it is resumed with. -/
theorem cont_contSignals (resumable : Resumable k tid) (traced : Traced s)
    (live : s.Live thread tid) (listed : tid ∈ s.resumeContext.threadsWithSignalsToForward)
    (number : s.signalNumber thread = signal) (nonzero : signal ≠ 0)
    (allowed : signal ∉ s.signalsToBlock) (applies : s.applies k = true) :
    ∃ next, s.command k u .cont = some next ∧
      contSignals tid next.world.log = signal :: contSignals tid s.world.log :=
  cont_resumes resumable traced
    (fun _ => forwardSignals_stores traced live listed number nonzero allowed) applies

theorem live_setSignal (live : s.Live thread tid) : (s.setSignal thread signal).Live thread tid ∧
    tid ∈ (s.setSignal thread signal).resumeContext.threadsWithSignalsToForward ∧
    (s.setSignal thread signal).signalNumber thread = signal ∧
    (s.setSignal thread signal).signalsToBlock = s.signalsToBlock := by
  obtain ⟨⟨t, here, sameId, -⟩, -⟩ := Debugger.getThreadById_eq_some.mp live.found
  obtain ⟨t', found, assigned⟩ : ∃ t ∈ s.threads[thread]?, s.setSignal thread signal = _ :=
    setSignal_eq (by simp [here])
  obtain rfl : t = t' := by
    rw [here] at found
    exact Option.some.inj found
  rw [assigned]
  refine ⟨⟨?_, live.node⟩, ?_, ?_, rfl⟩
  · exact (Debugger.getThreadById_of_identities (s.identities_withNumber thread signal) tid).trans
      live.found
  · simp [sameId]
  · exact Debugger.signalNumber_withNumber_self live.found signal

theorem traced_setSignal (traced : Traced s) : Traced (s.setSignal thread signal) :=
  traced.frame (perform_changes s (.setSignal thread signal)) (by decide)

/-! ### Reachable states -/

/-- In every state that the debugger reaches, a signal that has a name and is not blocked can
be sent to a thread if and only if the number that the last stop of the thread left has a name
as well, and `cont` can make the pending changes of the breakpoints. -/
theorem signal_sent_iff {world : World K} {commands : List Command}
    (reached : (debugging k u).run (.initial world) commands = some s)
    (live : s.Live thread tid) (resumable : Resumable k tid)
    (named : hasSignalName signal = true) (allowed : signal ∉ s.signalsToBlock) :
    SendsSignal k u s thread tid signal ↔
      (s.signalNumber thread = 0 ∨ hasSignalName (s.signalNumber thread) = true) ∧
        (s.setSignal thread signal).applies k = true := by
  have traced : Traced s := reachable_traced reached
  obtain ⟨liveAfter, listed, number, blocked⟩ :
      (s.setSignal thread signal).Live thread tid ∧ _ := live_setSignal live
  constructor
  · rintro ⟨t, assigned, next, commanded, resumed⟩
    obtain ⟨known, rfl⟩ := (assignSignal_ok named).mp assigned
    refine ⟨known, ?_⟩
    unfold Debugger.applies
    split
    · rfl
    · rename_i e t raised
      rw [command_cont_raised raised commanded] at resumed
      exact absurd resumed (List.cons_ne_self _ _).symm
  · rintro ⟨known, applies⟩
    refine ⟨_, (assignSignal_ok named).mpr ⟨known, rfl⟩, ?_⟩
    exact cont_contSignals resumable (traced_setSignal traced) liveAfter listed number
      (hasSignalName_pos named) (blocked ▸ allowed) applies

end Resuming

/-- Thread 1 at `0x1000`, in front of the system call 0, for which it is reported stopped. -/
def stoppedAtSyscall : World Script :=
  .nops
    { registers := fun _ => some fun reg => if reg = .rip then 0x1000 else 0
      reports := [some ⟨1, 0x857f, .syscall⟩, none] }

/-- The same thread, reported stopped for a `SIGUSR1` -/
def stoppedForSignal : World Script :=
  .nops
    { registers := fun _ => some fun reg => if reg = .rip then 0x1000 else 0
      reports := [some ⟨1, 0x0a7f, .delivery⟩, none] }

theorem signal_sent_after_signal : ∃ s, (debugging scripted idle).run (.initial stoppedForSignal)
    [.registerNewThread 1, .wait 2] = some s ∧ SendsSignal scripted idle s 0 1 12 := by
  obtain ⟨s, reached, found, node, allowed, known, applies⟩ :
      ∃ s, (debugging scripted idle).run (.initial stoppedForSignal)
        [.registerNewThread 1, .wait 2] = some s ∧ s.getThreadById 1 = some 0 ∧
          1 ∈ s.globalState.tHead.map (·.tid) ∧ 12 ∉ s.signalsToBlock ∧
          hasSignalName (s.signalNumber 0) = true ∧ (s.setSignal 0 12).applies scripted = true :=
    Machine.exists_of_run (by decide +kernel)
  exact ⟨s, reached, (signal_sent_iff reached ⟨found, node⟩ (fun _ _ _ _ => rfl) (by decide)
    allowed).mpr ⟨.inr known, applies⟩⟩

/-- After a stop at a handled system call no signal can be assigned. -/
theorem signal_refused_after_syscall :
    ∃ s, (debugging scripted idle).run (.initial stoppedAtSyscall)
        [.registerNewThread 1, .handleSyscall 0 none none false, .cont, .wait 2] = some s ∧
      s.resumeContext.resume = false ∧ s.Live 0 1 ∧ 12 ∉ s.signalsToBlock ∧
      hasSignalName 12 = true ∧ Resumable scripted 1 ∧
      ¬ SendsSignal scripted idle s 0 1 12 := by
  obtain ⟨s, reached, stopped, found, node, allowed, unset, unnamed⟩ :
      ∃ s, (debugging scripted idle).run (.initial stoppedAtSyscall)
        [.registerNewThread 1, .handleSyscall 0 none none false, .cont, .wait 2] = some s ∧
        s.resumeContext.resume = false ∧ s.getThreadById 1 = some 0 ∧
        1 ∈ s.globalState.tHead.map (·.tid) ∧ 12 ∉ s.signalsToBlock ∧
        s.signalNumber 0 ≠ 0 ∧ hasSignalName (s.signalNumber 0) = false :=
    Machine.exists_of_run (by decide +kernel)
  refine ⟨s, reached, stopped, ⟨found, node⟩, allowed, by decide, fun _ _ _ _ => rfl, ?_⟩
  rintro ⟨t, assigned, -⟩
  obtain ⟨known, -⟩ := (assignSignal_ok (by decide)).mp assigned
  rcases known with zero | named
  · exact unset zero
  · rw [unnamed] at named
    cases named

end Libdebug.Ptrace
