import Libdebug.Cffi.Nodes

/-!
The register files of threads that have been unregistered. Their nodes are on the dead list, and
the contexts of the Python side still point into them.

The calls refresh and flush the files of the nodes of the list of threads only. That a file is no
more among those, and will not be given to a new node, is what every call preserves.
-/

namespace Libdebug.Cffi

open Libdebug.Foundation

variable {K : Type} {k : Kernel K} {pid : Int}

/-! ### What is stored in register files -/

/-- Every file is left alone, or holds what a `PTRACE_GETREGS` for its node has read. -/
structure Refreshes (k : Kernel K) (nodes : List (Int × Ptr)) (g h : GlobalState) : Prop where
  cases : ∀ file, h.files file = g.files file ∨
    ∃ tid os, (tid, file) ∈ nodes ∧ k.getregs os tid = some (h.files file)

theorem setFile_files_self {g : GlobalState} {file : Ptr} {regs : UserRegs} :
    (g.setFile file regs).files file = regs := by
  simp [GlobalState.setFile]

theorem setFile_files_of_ne {g : GlobalState} {file other : Ptr} {regs : UserRegs}
    (different : other ≠ file) : (g.setFile file regs).files other = g.files other := by
  simp [GlobalState.setFile, different]

namespace Refreshes

variable {nodes : List (Int × Ptr)} {g h i : GlobalState}

theorem of_files (same : h.files = g.files) : Refreshes k nodes g h :=
  ⟨fun file => .inl (congrFun same file)⟩

theorem refl : Refreshes k nodes g g := of_files rfl

theorem trans (first : Refreshes k nodes g h) (second : Refreshes k nodes h i) :
    Refreshes k nodes g i := by
  refine ⟨fun file => ?_⟩
  rcases second.cases file with same | read
  · rw [same]
    exact first.cases file
  · exact .inr read

theorem setFile {tid : Int} {file : Ptr} {regs : UserRegs} {os : K} (node : (tid, file) ∈ nodes)
    (read : k.getregs os tid = some regs) : Refreshes k nodes g (g.setFile file regs) := by
  refine ⟨fun other => ?_⟩
  by_cases same : other = file
  · subst same
    refine .inr ⟨tid, os, node, ?_⟩
    rw [setFile_files_self]
    exact read
  · exact .inl (setFile_files_of_ne same)

theorem getregs {tid : Int} {file : Ptr} (w : World K) (node : (tid, file) ∈ nodes) :
    Refreshes k nodes g (g.getregs k w tid file) := by
  unfold GlobalState.getregs
  split
  · exact refl
  · rename_i read
    exact setFile node read

theorem getregsLoop {threads : List Thread} (w : World K)
    (listed : ∀ t ∈ threads, (t.tid, t.regs) ∈ nodes) :
    Refreshes k nodes g (threads.foldl (fun g t => g.getregs k w t.tid t.regs) g) := by
  induction threads generalizing g with
  | nil => exact refl
  | cons t rest ih =>
      obtain ⟨here, others⟩ := List.forall_mem_cons.mp listed
      exact (getregs w here).trans (ih others)

theorem stepUntilLoop {tid : Int} {file : Ptr} (node : (tid, file) ∈ nodes) (addr : Nat)
    (maxSteps : Int) (fuel : Nat) (count : Int) (w : World K) :
    Refreshes k nodes g (Cffi.stepUntilLoop k tid file addr maxSteps fuel count g w).2.1 := by
  induction fuel generalizing count g w with
  | zero => exact refl
  | succ fuel ih =>
      simp only [Cffi.stepUntilLoop]
      split
      · rcases w.singlestep k tid 0 with ⟨_ | _, w₁⟩
        · exact refl
        · rcases waited : w₁.waitpid k .stepUntil (.thread tid) false with ⟨_, w₂⟩
          have refreshed : Refreshes k nodes g (g.getregs k w₂ tid file) := getregs w₂ node
          simp only [waited]
          split
          · exact refreshed
          · split
            · exact refreshed.trans (ih ..)
            · exact refreshed.trans (ih ..)
      · exact refl

theorem steppingFinishLoop {tid : Int} {file : Ptr} (node : (tid, file) ∈ nodes) (fuel : Nat)
    (counter : Int) (w : World K) :
    Refreshes k nodes g (Cffi.steppingFinishLoop k tid file fuel counter g w).2.1 := by
  induction fuel generalizing counter g w with
  | zero => exact refl
  | succ fuel ih =>
      simp only [Cffi.steppingFinishLoop]
      rcases w.singlestep k tid 0 with ⟨_ | _, w₁⟩
      · exact refl
      · rcases waited : w₁.waitpid k .steppingFinish (.thread tid) false with ⟨_, w₂⟩
        have refreshed : Refreshes k nodes g (g.getregs k w₂ tid file) := getregs w₂ node
        simp only [waited]
        split
        · exact refreshed
        · split
          · exact refreshed.trans (ih ..)
          · exact refreshed

theorem interruptThreads {threads : List Thread}
    (listed : ∀ t ∈ threads, (t.tid, t.regs) ∈ nodes) (tempStatus : Nat) (head : ThreadStatus)
    (older : List ThreadStatus) (w : World K) :
    Refreshes k nodes g
      (Cffi.interruptThreads k pid threads tempStatus head older g w).2.1 := by
  induction threads generalizing tempStatus head older g w with
  | nil => exact refl
  | cons t rest ih =>
      obtain ⟨here, others⟩ := List.forall_mem_cons.mp listed
      simp only [Cffi.interruptThreads]
      split
      · exact ih others ..
      · rcases read : k.getregs w.os t.tid with _ | regs
        · dsimp only
          split <;> exact ih others ..
        · dsimp only
          exact (setFile here read).trans (ih others ..)

end Refreshes

/-! ### The functions that refresh files -/

section Functions

variable {g : GlobalState} {t : Thread} {tid : Int}

theorem nodeIds_congr {h : GlobalState} (same : h.tHead = g.tHead) : nodeIds h = nodeIds g := by
  rw [nodeIds, same, nodeIds]

theorem node_mem (member : t ∈ g.tHead) : (t.tid, t.regs) ∈ nodeIds g :=
  List.mem_map_of_mem (f := fun t => (t.tid, t.regs)) member

theorem node_of_find (found : g.tHead.find? (·.tid = tid) = some t) :
    (tid, t.regs) ∈ nodeIds g := by
  have same : t.tid = tid := by simpa using List.find?_some found
  exact same ▸ node_mem (List.mem_of_find?_eq_some found)

theorem registerThread_refreshes (w : World K) (tid : Int) :
    Refreshes k (nodeIds (registerThread k g w tid).2) g (registerThread k g w tid).2 := by
  unfold registerThread
  split
  · exact Refreshes.refl
  · have refreshed : Refreshes k ((tid, g.fresh) :: nodeIds g) g (g.getregs k w tid g.fresh) :=
      Refreshes.getregs w List.mem_cons_self
    simp only [nodeIds, List.map_cons, GlobalState.getregs_tHead]
    exact ⟨refreshed.cases⟩

theorem stepUntil_refreshes (fuel : Nat) (w : World K) (tid : Int) (addr : Nat) (maxSteps : Int) :
    Refreshes k (nodeIds g) g (stepUntil k fuel g w tid addr maxSteps).2.1 := by
  unfold stepUntil
  dsimp only
  split
  · exact Refreshes.refl
  · rename_i t found
    have member := List.mem_filter.mp (List.mem_of_getLast? found)
    have same : t.tid = tid := by simpa using member.2
    exact Refreshes.stepUntilLoop (same ▸ node_mem member.1) addr maxSteps fuel 0 _

theorem steppingFinish_refreshes (fuel : Nat) (w : World K) (tid : Int) :
    Refreshes k (nodeIds g) g (steppingFinish k fuel g w tid).2.1 := by
  unfold steppingFinish
  rcases prepareForRun k g w with ⟨-, w₀⟩
  dsimp only
  split
  · exact Refreshes.refl
  · rename_i t found
    have node := node_of_find found
    have looped := Refreshes.steppingFinishLoop (k := k) (g := g) node fuel 1 w₀
    split <;> rename_i left <;> rw [left] at looped
    · exact looped
    · exact looped
    · exact looped
    · rename_i g₁ w₁
      rcases w₁.singlestep k tid 0 with ⟨_ | _, w₂⟩
      · exact looped
      · exact looped.trans (Refreshes.getregs _ node)

theorem waitAllAndUpdateRegs_refreshes (fuel : Nat) (w : World K) :
    Refreshes k (nodeIds g) g (waitAllAndUpdateRegs k fuel g w pid).2.1 := by
  unfold waitAllAndUpdateRegs
  rcases w.waitpid k .waitAllAndUpdateRegs (.group pid) false with ⟨_ | head, w₁⟩
  · exact Refreshes.refl
  · have listed : ∀ t ∈ g.tHead, (t.tid, t.regs) ∈ nodeIds g := fun t member => node_mem member
    have interrupted : Refreshes k (nodeIds g) g
        (interruptThreads k pid g.tHead 0 head [] g w₁).2.1 :=
      Refreshes.interruptThreads listed 0 head [] w₁
    have nodes := (interruptThreads_performs (k := k) pid g.tHead 0 head [] g w₁).tHead
    rcases stopped : interruptThreads k pid g.tHead 0 head [] g w₁ with ⟨list, g₂, w₂⟩
    rw [stopped] at interrupted nodes
    simp only [stopped]
    rcases drainStatuses k pid fuel list w₂ with ⟨_ | list, w₃⟩
    · exact interrupted
    · refine interrupted.trans (Refreshes.getregsLoop w₃ ?_)
      rw [show g₂.tHead = g.tHead from nodes]
      exact listed

end Functions

/-! ### Calls -/

section Calls

variable {s next : Session K} {call : Call} {file : Ptr}

/-- The nodes that a call issues `PTRACE_SETREGS` for: the functions that resume threads begin with
a loop over the list of threads. -/
def Session.setregsNodes (s : Session K) : Call → List (Int × Ptr)
  | .singlestep _ | .stepUntil _ _ _ _ | .contAllAndSetBps | .steppingFinish _ _ => nodeIds s.g
  | _ => []

/-- A call stores the values in the file: the user writes them, or they are read by a
`PTRACE_GETREGS` for the node of the file. -/
def Stores (k : Kernel K) (call : Call) (next : Session K) (file : Ptr) (regs : UserRegs) : Prop :=
  call = .writeRegs file regs ∨
    ∃ tid os, (tid, file) ∈ nodeIds next.g ∧ k.getregs os tid = some regs

/-- What a call can do to the nodes of the list of threads and to register files -/
structure CallEffect (k : Kernel K) (s : Session K) (call : Call) (next : Session K) : Prop where
  fresh : s.g.fresh ≤ next.g.fresh
  nodes : ∀ node ∈ nodeIds next.g,
    node ∈ nodeIds s.g ∨ node.2 = s.g.fresh ∧ s.g.fresh < next.g.fresh
  files : ∀ file,
    next.g.files file = s.g.files file ∨ Stores k call next file (next.g.files file)

namespace CallEffect

/-- A call that leaves the nodes alone stores only what it reads for them. -/
theorem of_refreshes (fresh : next.g.fresh = s.g.fresh) (ids : nodeIds next.g = nodeIds s.g)
    (refreshed : Refreshes k (nodeIds s.g) s.g next.g) : CallEffect k s call next where
  fresh := Nat.le_of_eq fresh.symm
  nodes node member := .inl (ids ▸ member)
  files file := by
    rw [← ids] at refreshed
    exact (refreshed.cases file).imp_right .inr

theorem of_same (fresh : next.g.fresh = s.g.fresh) (ids : nodeIds next.g = nodeIds s.g)
    (files : next.g.files = s.g.files) : CallEffect k s call next :=
  of_refreshes fresh ids (.of_files files)

theorem registerThread (s : Session K) (tid : Int) :
    CallEffect k s (.registerThread tid) { s with g := (Cffi.registerThread k s.g s.w tid).2 } where
  fresh := by
    unfold Cffi.registerThread
    split
    · exact Nat.le_refl _
    · simp only [GlobalState.getregs_fresh]
      exact Nat.le_succ _
  nodes := by
    unfold Cffi.registerThread
    split
    · exact fun node member => .inl member
    · intro node member
      simp only [nodeIds, List.map_cons, GlobalState.getregs_tHead, GlobalState.getregs_fresh] at *
      obtain rfl | old := List.mem_cons.mp member
      · exact .inr ⟨rfl, Nat.lt_succ_self _⟩
      · exact .inl old
  files file := ((registerThread_refreshes s.w tid).cases file).imp_right .inr

theorem unregisterThread (s : Session K) (tid : Int) :
    CallEffect k s (.unregisterThread tid) { s with g := Cffi.unregisterThread s.g tid } := by
  unfold Cffi.unregisterThread
  split
  · exact of_same rfl rfl rfl
  · rename_i t _
    have fewer : (s.g.tHead.erase t).Sublist s.g.tHead := List.erase_sublist
    exact ⟨Nat.le_refl _, fun node member => .inl ((fewer.map _).subset member), fun _ => .inl rfl⟩

theorem writeRegs (s : Session K) (written : Ptr) (regs : UserRegs) :
    CallEffect k s (.writeRegs written regs) { s with g := s.g.setFile written regs } where
  fresh := Nat.le_refl _
  nodes node member := .inl member
  files file := by
    by_cases same : file = written
    · subst same
      refine .inr (.inl ?_)
      rw [setFile_files_self]
    · exact .inl (setFile_files_of_ne same)

end CallEffect

theorem Session.call_effect (called : s.call k pid call = some next) :
    CallEffect k s call next := by
  cases call with
  | registerThread tid =>
      cases called
      exact .registerThread s tid
  | unregisterThread tid =>
      cases called
      exact .unregisterThread s tid
  | writeRegs written regs =>
      cases called
      exact .writeRegs s written regs
  | registerBreakpoint address =>
      rcases registerBreakpoint_cases s.g s.w address with
          ⟨b, -, done⟩ | ⟨b, -, -, -, -, done⟩ <;>
        simp only [Session.call, done] at called <;> cases called <;>
        exact .of_same rfl rfl rfl
  | enableBreakpoint address =>
      obtain ⟨⟨g, w⟩, switched, rfl⟩ := Option.map_eq_some_iff.mp called
      rcases enableBreakpoint_cases switched with ⟨-, rfl, -⟩ | ⟨b, -, rfl, -⟩ <;>
        exact .of_same rfl rfl rfl
  | disableBreakpoint address =>
      obtain ⟨⟨g, w⟩, switched, rfl⟩ := Option.map_eq_some_iff.mp called
      rcases disableBreakpoint_cases switched with ⟨-, rfl, -⟩ | ⟨b, -, rfl, -⟩ <;>
        exact .of_same rfl rfl rfl
  | unregisterBreakpoint | freeBreakpoints | ptracePokedata =>
      cases called
      exact .of_same rfl rfl rfl
  | forward file signal =>
      cases called
      exact .of_same rfl (nodeIds_forward s.g file signal) rfl
  | singlestep tid =>
      cases called
      exact .of_same rfl (map_takeSignal tid s.g.tHead 0) rfl
  | contAllAndSetBps =>
      cases called
      exact .of_same rfl (by simp [nodeIds, Function.comp_def]) rfl
  | stepUntil fuel tid addr maxSteps =>
      have refreshed := stepUntil_refreshes (k := k) (g := s.g) fuel s.w tid addr maxSteps
      have performed := stepUntil_performs (k := k) fuel s.g s.w tid addr maxSteps
      simp only [Session.call] at called
      split at called <;> cases called
      rename_i result
      rw [result] at refreshed performed
      exact .of_refreshes performed.fresh (nodeIds_congr performed.tHead) refreshed
  | steppingFinish fuel tid =>
      have refreshed := steppingFinish_refreshes (k := k) (g := s.g) fuel s.w tid
      obtain ⟨g, w, performed, done⟩ := steppingFinish_spec (k := k) fuel s.g s.w tid
      rcases done with done | done | done <;> rw [done] at refreshed <;>
        simp only [Session.call, done] at called <;> cases called <;>
        exact .of_refreshes performed.fresh (nodeIds_congr performed.tHead) refreshed
  | waitAllAndUpdateRegs fuel =>
      have refreshed : Refreshes k (nodeIds s.g) s.g
          (waitAllAndUpdateRegs k fuel s.g s.w pid).2.1 :=
        waitAllAndUpdateRegs_refreshes fuel s.w
      obtain ⟨g, w, performed, done⟩ := waitAllAndUpdateRegs_spec (k := k) fuel s.g s.w pid
      rcases done with done | done | ⟨list, done⟩ <;> rw [done] at refreshed <;>
        simp only [Session.call, done] at called <;> cases called <;>
        exact .of_refreshes performed.fresh (nodeIds_congr performed.tHead) refreshed

/-! ### Retired files -/

/-- The file has been given out, and no node of the list of threads embeds it. -/
structure Retired (file : Ptr) (g : GlobalState) : Prop where
  old : file < g.fresh
  away : ∀ tid, (tid, file) ∉ nodeIds g

theorem Retired.kept (retired : Retired file s.g) (called : s.call k pid call = some next) :
    Retired file next.g := by
  have effect := Session.call_effect called
  refine ⟨Nat.lt_of_lt_of_le retired.old effect.fresh, fun tid member => ?_⟩
  rcases effect.nodes _ member with old | ⟨new, -⟩
  · exact retired.away tid old
  · exact absurd new (Nat.ne_of_lt retired.old)

/-- Only the user changes a retired file. -/
theorem Retired.files (retired : Retired file s.g) (called : s.call k pid call = some next)
    (untouched : ∀ regs, call ≠ .writeRegs file regs) :
    next.g.files file = s.g.files file := by
  rcases (Session.call_effect called).files file with same | written | ⟨tid, os, node, -⟩
  · exact same
  · exact absurd written (untouched _)
  · exact absurd node ((retired.kept called).away tid)

/-- No `PTRACE_SETREGS` is issued with a retired file. -/
theorem Retired.not_setregs (retired : Retired file s.g) (call : Call) :
    ∀ tid, (tid, file) ∉ s.setregsNodes call := by
  intro tid
  cases call with
  | singlestep | stepUntil | contAllAndSetBps | steppingFinish => exact retired.away tid
  | _ => exact List.not_mem_nil

/-- Unregistering retires the file of the thread. -/
theorem retired_of_unregister {g : GlobalState} {t : Thread} {tid : Int} (apart : NodesApart g)
    (registered : g.tHead.find? (·.tid = tid) = some t) :
    Retired t.regs (unregisterThread g tid) := by
  have member : t ∈ g.tHead := List.mem_of_find?_eq_some registered
  simp only [unregisterThread, registered]
  refine ⟨apart.allocated t member, fun other listed => ?_⟩
  obtain ⟨node, kept, same⟩ := List.mem_map.mp listed
  have listedOnce : g.tHead.Nodup := apart.files.of_map _
  obtain ⟨different, old⟩ := listedOnce.mem_erase_iff.mp kept
  exact different (List.inj_on_of_nodup_map apart.files old member (congrArg Prod.snd same))

end Calls

/-! ### The requests that are issued -/

/-- A kernel that notes every `PTRACE_SETREGS`, also one that fails, newest first. -/
def recordingSetregs (k : Kernel K) : Kernel (K × List (Int × UserRegs)) where
  errno os := k.errno os.1
  getregs os tid := k.getregs os.1 tid
  setregs os tid regs := some ((k.setregs os.1 tid regs).getD os.1, (tid, regs) :: os.2)
  peekuser os tid offset := k.peekuser os.1 tid offset
  pokeuser os tid offset value := (k.pokeuser os.1 tid offset value).map fun next => (next, os.2)
  geteventmsg os tid := k.geteventmsg os.1 tid
  singlestep mem os tid signal :=
    (k.singlestep mem os.1 tid signal).map fun next => (next.1, next.2, os.2)
  cont mem os syscalls tid signal :=
    (k.cont mem os.1 syscalls tid signal).map fun next => (next.1, next.2, os.2)
  tgkill os pid tid signal := (k.tgkill os.1 pid tid signal, os.2)
  waitpid mem os target nohang :=
    let reported := k.waitpid mem os.1 target nohang
    (reported.1, reported.2.1, reported.2.2, os.2)

section Recording

variable {s next : Session (K × List (Int × UserRegs))} {call : Call} {g : GlobalState}
  {w : World (K × List (Int × UserRegs))}

/-- The other requests add nothing to the record. -/
theorem recorded_of_performs {allowed : Request → Prop}
    {before after : GlobalState × World (K × List (Int × UserRegs))}
    (other : ∀ tid regs, ¬ allowed (.setregs tid regs))
    (performed : Performs (recordingSetregs k) allowed before after) :
    after.2.os.2 = before.2.os.2 := by
  refine performed.invariant (motive := fun after => after.2.os.2 = before.2.os.2) ?_ rfl
  rintro request ⟨g, w⟩ ok same
  rw [← same]
  cases request with
  | setregs tid regs => exact absurd ok (other tid regs)
  | getregs tid file => rfl
  | tgkill pid tid signal => rfl
  | singlestep tid signal =>
      simp only [Request.perform, World.singlestep, recordingSetregs]
      cases k.singlestep w.mem w.os.1 tid signal <;> rfl
  | cont syscalls tid signal =>
      simp only [Request.perform, World.cont, recordingSetregs]
      cases k.cont w.mem w.os.1 syscalls tid signal <;> rfl
  | waitpid site target nohang =>
      simp only [Request.perform, World.waitpid, recordingSetregs]
      rcases k.waitpid w.mem w.os.1 target nohang with ⟨_ | status, mem, os⟩ <;> rfl

/-- What a flush notes: the id and the file of each node, in order -/
def flushed (nodes : List (Int × Ptr)) (g : GlobalState) : List (Int × UserRegs) :=
  (nodes.map fun node => (node.1, g.files node.2)).reverse

theorem flushRegs_records (g : GlobalState) (w : World (K × List (Int × UserRegs))) :
    (flushRegs (recordingSetregs k) g w).os.2 = flushed (nodeIds g) g ++ w.os.2 := by
  unfold flushRegs flushed nodeIds
  induction g.tHead generalizing w with
  | nil => rfl
  | cons t rest ih =>
      rw [List.foldl_cons, ih]
      simp [World.setregs, recordingSetregs]

theorem singlestep_records (g : GlobalState) (w : World (K × List (Int × UserRegs))) (tid : Int) :
    (singlestep (recordingSetregs k) g w tid).2.2.os.2 = flushed (nodeIds g) g ++ w.os.2 := by
  have stepped : Performs (recordingSetregs k) (fun r => ¬ r.Flushing)
      (g, flushRegs (recordingSetregs k) g w) (g, (singlestep (recordingSetregs k) g w tid).2.2) :=
    Performs.single (.singlestep tid (takeSignal tid g.tHead 0).1) id
  exact (recorded_of_performs (fun _ _ flushes => flushes trivial) stepped).trans
    (flushRegs_records g w)

theorem stepUntil_records (fuel : Nat) (g : GlobalState) (w : World (K × List (Int × UserRegs)))
    (tid : Int) (addr : Nat) (maxSteps : Int) :
    (stepUntil (recordingSetregs k) fuel g w tid addr maxSteps).2.2.os.2 =
      flushed (nodeIds g) g ++ w.os.2 := by
  unfold stepUntil
  dsimp only
  split
  · exact flushRegs_records g w
  · exact (recorded_of_performs (fun _ _ impossible => impossible)
      (stepUntilLoop_performs ..)).trans (flushRegs_records g w)

theorem prepareForRun_records (g : GlobalState) (w : World (K × List (Int × UserRegs))) :
    (prepareForRun (recordingSetregs k) g w).2.os.2 = flushed (nodeIds g) g ++ w.os.2 := by
  have steppedOver := recorded_of_performs (fun _ _ impossible => impossible)
    (stepOver_performs (k := recordingSetregs k) g g.tHead 0 (flushRegs (recordingSetregs k) g w))
  rw [← flushRegs_records, ← steppedOver]
  unfold prepareForRun
  dsimp only
  rcases stepOver (recordingSetregs k) g g.tHead 0 (flushRegs (recordingSetregs k) g w) with
    ⟨_ | status, next⟩
  · rfl
  · simp only [armBreakpoints_eq]

/-- A call issues `PTRACE_SETREGS` for the nodes of `setregsNodes` and with their files, and
otherwise never. -/
theorem Session.call_records (called : s.call (recordingSetregs k) pid call = some next) :
    next.w.os.2 = flushed (s.setregsNodes call) s.g ++ s.w.os.2 := by
  cases call with
  | registerThread | unregisterThread | unregisterBreakpoint | freeBreakpoints | writeRegs |
      forward | ptracePokedata =>
      cases called
      rfl
  | registerBreakpoint address =>
      rcases registerBreakpoint_cases s.g s.w address with
          ⟨b, -, done⟩ | ⟨b, -, -, -, -, done⟩ <;>
        simp only [Session.call, done] at called <;> cases called <;> rfl
  | enableBreakpoint address =>
      obtain ⟨⟨g, w⟩, switched, rfl⟩ := Option.map_eq_some_iff.mp called
      rcases enableBreakpoint_cases switched with ⟨-, rfl, rfl⟩ | ⟨b, -, rfl, rfl⟩ <;> rfl
  | disableBreakpoint address =>
      obtain ⟨⟨g, w⟩, switched, rfl⟩ := Option.map_eq_some_iff.mp called
      rcases disableBreakpoint_cases switched with ⟨-, rfl, rfl⟩ | ⟨b, -, rfl, rfl⟩ <;> rfl
  | singlestep tid =>
      cases called
      exact singlestep_records s.g s.w tid
  | stepUntil fuel tid addr maxSteps =>
      have records := stepUntil_records (k := k) fuel s.g s.w tid addr maxSteps
      simp only [Session.call] at called
      split at called <;> cases called
      rename_i result
      rw [result] at records
      exact records
  | contAllAndSetBps =>
      cases called
      have resumed := recorded_of_performs (fun _ _ impossible => impossible)
        (resumeLoop_performs (k := recordingSetregs k) s.g.handleSyscallEnabled s.g.tHead s.g
          (prepareForRun (recordingSetregs k) s.g s.w).2)
      exact resumed.trans (prepareForRun_records s.g s.w)
  | steppingFinish fuel tid =>
      obtain ⟨g, w, performed, done⟩ :=
        steppingFinish_spec (k := recordingSetregs k) fuel s.g s.w tid
      have stepped := recorded_of_performs (fun _ _ impossible => impossible) performed
      rcases done with done | done | done <;>
        simp only [Session.call, done] at called <;> cases called <;>
        simp only [restoreBreakpoints_eq] <;>
        exact stepped.trans (prepareForRun_records s.g s.w)
  | waitAllAndUpdateRegs fuel =>
      obtain ⟨g, w, performed, done⟩ :=
        waitAllAndUpdateRegs_spec (k := recordingSetregs k) fuel s.g s.w pid
      have collected := recorded_of_performs (fun _ _ impossible => impossible) performed
      rcases done with done | done | ⟨list, done⟩ <;>
        simp only [Session.call, done] at called <;> cases called <;>
        simp only [restoreBreakpoints_eq] <;> exact collected

end Recording

/-! ### Runs -/

/-- The values of a file are those of the last store: a call has stored them, and they have been
there since. Without any store, they have been there from the beginning. -/
def LastStored (k : Kernel K) (pid : Int) (w : World K) (calls : List Call) (file : Ptr)
    (regs : UserRegs) : Prop :=
  (session k pid).Throughout (fun s => s.g.files file = regs) (.initial w) calls ∨
    ∃ earlier call later s next, calls = earlier ++ call :: later ∧
      (session k pid).run (.initial w) earlier = some s ∧ s.call k pid call = some next ∧
      Stores k call next file regs ∧
      (session k pid).Throughout (fun s => s.g.files file = regs) next later

section Runs

variable {s after before : Session K} {calls later : List Call} {file : Ptr} {w : World K}
  {t : Thread}

/-- Along a run, a file is left alone or there is a last store. -/
theorem stored_last {start : Session K} (reached : (session k pid).run start calls = some s) :
    (session k pid).Throughout (fun m => m.g.files file = s.g.files file) start calls ∨
      ∃ earlier call later m next, calls = earlier ++ call :: later ∧
        (session k pid).run start earlier = some m ∧ m.call k pid call = some next ∧
        Stores k call next file (s.g.files file) ∧
        (session k pid).Throughout (fun m => m.g.files file = s.g.files file) next later := by
  induction calls generalizing start with
  | nil =>
      cases reached
      exact .inl (Machine.throughout_nil.mpr rfl)
  | cons call rest ih =>
      cases called : start.call k pid call with
      | none => simp [Machine.run, session, called] at reached
      | some next =>
          have stepped : (session k pid).step start call = some next := called
          rw [Machine.run_cons stepped] at reached
          rcases ih reached with kept | ⟨earlier, stored, later, m, final, split, run, rest⟩
          · have here : next.g.files file = s.g.files file :=
              kept [] rest next rfl rfl
            rcases (Session.call_effect called).files file with same | store
            · exact .inl ((Machine.throughout_cons stepped).mpr ⟨same.symm.trans here, kept⟩)
            · rw [here] at store
              exact .inr ⟨[], call, rest, start, next, rfl, rfl, called, store, kept⟩
          · exact .inr ⟨call :: earlier, stored, later, m, final, congrArg (call :: ·) split,
              (Machine.run_cons stepped).trans run, rest⟩

/-- A retired file keeps its values through every run in which the user does not write to it, and
no `PTRACE_SETREGS` is issued with it. -/
theorem Retired.run (retired : Retired file s.g)
    (reached : (session k pid).run s calls = some after)
    (untouched : ∀ regs, .writeRegs file regs ∉ calls) :
    after.g.files file = s.g.files file ∧
      (session k pid).Meets (fun s call => ∀ tid, (tid, file) ∉ s.setregsNodes call) s calls := by
  induction calls generalizing s with
  | nil =>
      cases reached
      exact ⟨rfl, trivial⟩
  | cons call rest ih =>
      cases called : s.call k pid call with
      | none => simp [Machine.run, session, called] at reached
      | some next =>
          have stepped : (session k pid).step s call = some next := called
          rw [Machine.run_cons stepped] at reached
          have here : ∀ regs, call ≠ .writeRegs file regs := by
            rintro regs rfl
            exact untouched regs List.mem_cons_self
          have others : ∀ regs, .writeRegs file regs ∉ rest := fun regs member =>
            untouched regs (List.mem_cons_of_mem call member)
          obtain ⟨same, met⟩ := ih (retired.kept called) reached others
          refine ⟨same.trans (retired.files called here), ?_⟩
          refine Machine.meets_cons.mpr ⟨retired.not_setregs call, fun other otherStep => ?_⟩
          cases stepped.symm.trans otherStep
          exact met

/-- After a thread is unregistered, its register file keeps the values last stored before, and no
`PTRACE_SETREGS` is issued with it, whatever calls follow. -/
theorem post_mortem_frozen (tid : Int)
    (reached : (session k pid).run (.initial w) calls = some before)
    (registered : before.g.tHead.find? (·.tid = tid) = some t)
    (followed : (session k pid).run before (.unregisterThread tid :: later) = some after)
    (untouched : ∀ regs, .writeRegs t.regs regs ∉ later) :
    LastStored k pid w calls t.regs (before.g.files t.regs) ∧
      after.g.files t.regs = before.g.files t.regs ∧
      (session k pid).Meets (fun s call => ∀ other, (other, t.regs) ∉ s.setregsNodes call) before
        (.unregisterThread tid :: later) := by
  refine ⟨stored_last reached, ?_⟩
  have retired := retired_of_unregister (session_nodesApart reached) registered
  have stepped : (session k pid).step before (.unregisterThread tid) =
      some { before with g := unregisterThread before.g tid } := rfl
  have same : (unregisterThread before.g tid).files = before.g.files := by
    simp only [unregisterThread, registered]
  rw [Machine.run_cons stepped] at followed
  obtain ⟨kept, met⟩ := Retired.run retired followed untouched
  refine ⟨kept.trans (congrFun same t.regs), ?_⟩
  refine Machine.meets_cons.mpr ⟨fun _ => List.not_mem_nil, fun other otherStep => ?_⟩
  cases stepped.symm.trans otherStep
  exact met

end Runs

/-- Thread 1 is stopped at `0x1000`, and its next stop will be reported once. -/
def oneStop : World Script :=
  .nops
    { registers := fun tid => if tid = 1 then some (fun _ => 0x1000) else none
      reports := [some ⟨1, 0x57F, .delivery⟩] }

/-- Thread 1 has been registered. -/
def oneRegistered : Session Script :=
  { Session.initial oneStop with g := (registerThread scripted .empty oneStop 1).2 }

/-- Another thread with the same id, which moves on -/
def successor : List Call :=
  [.registerThread 1, .writeRegs 1 fun _ => 0x2000, .singlestep 1, .contAllAndSetBps,
    .waitAllAndUpdateRegs 1]

theorem reused_id_keeps_file :
    ∃ after,
      (session scripted 1).run oneRegistered (.unregisterThread 1 :: successor) = some after ∧
      after.g.files 0 = oneRegistered.g.files 0 ∧ after.g.files 1 .rip = 0x2000 := by
  have reached : (session scripted 1).run (.initial oneStop) [.registerThread 1] =
      some oneRegistered := rfl
  have followed : (session scripted 1).run oneRegistered (.unregisterThread 1 :: successor) =
      some _ := rfl
  have untouched : ∀ regs, Call.writeRegs 0 regs ∉ successor := by
    intro regs
    simp [successor]
  have frozen := post_mortem_frozen (t := ⟨1, 0, 0⟩) 1 reached rfl followed untouched
  exact ⟨_, followed, frozen.2.1, by decide⟩

end Libdebug.Cffi
