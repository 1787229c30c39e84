import Libdebug.Cffi.FirstInstruction

/-!
What the commands that run one thread do to the others.

`singlestep` and `step_until` make requests on their own thread only, once every thread
has had its registers written back. `stepping_finish` begins with `prepare_for_run`, which
steps each thread whose instruction pointer is at an entry of the table, and reads the
registers of none of them again.
-/

namespace Libdebug.Cffi

open Libdebug.Foundation

variable {K : Type} {k : Kernel K} {pid : Int}

/-- The memories a thread has run in, one for each time it was let run. -/
def executions (tid : Int) (log : List Event) : List Memory := log.filterMap (·.ran tid)

/-- The registers of a stopped thread can be read and written, it can be stepped, and
they stay as they are while the requests are about another thread. -/
structure Kernel.StopsAlone (k : Kernel K) : Prop where
  setregs_stopped : ∀ {os tid} regs, (k.getregs os tid).isSome → (k.setregs os tid regs).isSome
  setregs_self : ∀ {os tid regs os'}, k.setregs os tid regs = some os' →
    k.getregs os' tid = some regs
  setregs_other : ∀ {os tid regs os' other}, k.setregs os tid regs = some os' → other ≠ tid →
    k.getregs os' other = k.getregs os other
  singlestep_stopped : ∀ {mem os tid} signal, (k.getregs os tid).isSome →
    (k.singlestep mem os tid signal).isSome
  singlestep_other : ∀ {mem os tid signal mem' os' other regs},
    k.singlestep mem os tid signal = some (mem', os') → other ≠ tid →
      k.getregs os other = some regs → k.getregs os' other = some regs
  waitpid_other : ∀ {mem os tid nohang other regs}, other ≠ tid → k.getregs os other = some regs →
    k.getregs (k.waitpid mem os (.thread tid) nohang).2.2 other = some regs

/-- The thread has not been let run, and its register file holds its registers. -/
structure LeftAlone (k : Kernel K) (t : Thread) (before after : GlobalState × World K) : Prop where
  executed : executions t.tid after.2.log = executions t.tid before.2.log
  cached : k.getregs after.2.os t.tid = some (after.1.files t.regs)

/-! ### Requests on one thread -/

/-- The requests that let a thread run, wait for it and read its registers. -/
def Request.OnThread (tid : Int) : Request → Prop
  | .singlestep stepped _ => stepped = tid
  | .waitpid _ target _ => target = .thread tid
  | .getregs read _ => read = tid
  | _ => False

theorem Request.Stepping.onThread {site : WaitSite} {tid : Int} {request : Request}
    (ok : request.Stepping site tid) : request.OnThread tid := by
  cases request with
  | singlestep => exact ok.1
  | waitpid => exact ok.2
  | getregs => exact ok
  | _ => exact ok.elim

/-- Between two worlds a thread is not let run and, if it is stopped, keeps its registers. -/
structure Spared (k : Kernel K) (other : Int) (before after : World K) : Prop where
  executed : executions other after.log = executions other before.log
  registers : ∀ regs, k.getregs before.os other = some regs → k.getregs after.os other = some regs

namespace Spared

variable {other : Int} {before middle after : World K}

theorem trans (first : Spared k other before middle) (second : Spared k other middle after) :
    Spared k other before after where
  executed := second.executed.trans first.executed
  registers regs stopped := second.registers regs (first.registers regs stopped)

/-- Patching memory is nothing to a thread. -/
theorem of_same (os : after.os = before.os) (log : after.log = before.log) :
    Spared k other before after := by
  constructor
  · rw [log]
  · intro regs stopped
    rwa [os]

theorem of_performs (alone : k.StopsAlone) {tid : Int} (different : other ≠ tid)
    {g g' : GlobalState} (performed : Performs k (Request.OnThread tid) (g, before) (g', after)) :
    Spared k other before after := by
  constructor
  · apply performed.filterMap_log (fun event => event.ran other)
    intro request event ok noted
    cases request with
    | singlestep stepped signal =>
        cases event with
        | stepped ran _ memory =>
            obtain ⟨rfl, -⟩ := noted
            cases ok
            exact if_neg different.symm
        | _ => exact noted.elim
    | waitpid site target nohang =>
        cases event with
        | reaped => rfl
        | _ => exact noted.elim
    | getregs => exact noted.elim
    | _ => exact ok.elim
  · intro regs stopped
    refine performed.invariant (motive := fun s => k.getregs s.2.os other = some regs) ?_ stopped
    rintro request ⟨g, w⟩ ok there
    cases request with
    | singlestep stepped signal =>
        cases ok
        simp only [Request.perform, World.singlestep]
        split
        · exact there
        · rename_i done
          exact alone.singlestep_other done different there
    | waitpid site target nohang =>
        cases ok
        have waited : k.getregs (k.waitpid w.mem w.os (.thread tid) nohang).2.2 other = some regs :=
          alone.waitpid_other different there
        simp only [Request.perform, World.waitpid]
        split <;> rename_i reported <;> rw [reported] at waited <;> exact waited
    | getregs => exact there
    | _ => exact ok.elim

end Spared

/-! ### Writing the registers back -/

theorem setregs_other (alone : k.StopsAlone) {w : World K} {tid other : Int} (regs : UserRegs)
    (different : other ≠ tid) :
    k.getregs (w.setregs k tid regs).os other = k.getregs w.os other := by
  unfold World.setregs
  split
  · rfl
  · rename_i done
    exact alone.setregs_other done different

theorem setregs_self (alone : k.StopsAlone) {w : World K} {tid : Int} (regs : UserRegs)
    (stopped : (k.getregs w.os tid).isSome) :
    k.getregs (w.setregs k tid regs).os tid = some regs := by
  obtain ⟨os, done⟩ := Option.isSome_iff_exists.mp (alone.setregs_stopped regs stopped)
  simp only [World.setregs, done]
  exact alone.setregs_self done

theorem foldl_setregs_other (alone : k.StopsAlone) {g : GlobalState} {threads : List Thread}
    {w : World K} {other : Int} (absent : ∀ t ∈ threads, t.tid ≠ other) :
    k.getregs (threads.foldl (fun w t => w.setregs k t.tid (g.files t.regs)) w).os other =
      k.getregs w.os other := by
  induction threads generalizing w with
  | nil => rfl
  | cons t rest ih =>
      obtain ⟨here, later⟩ := List.forall_mem_cons.mp absent
      rw [List.foldl_cons, ih later]
      exact setregs_other alone _ here.symm

/-- Written back to stopped threads, the register files hold the registers. -/
theorem foldl_setregs_self (alone : k.StopsAlone) {g : GlobalState} {threads : List Thread}
    {w : World K} (distinct : (threads.map (·.tid)).Nodup)
    (stopped : ∀ t ∈ threads, (k.getregs w.os t.tid).isSome) :
    ∀ t ∈ threads, k.getregs (threads.foldl (fun w t => w.setregs k t.tid (g.files t.regs)) w).os
      t.tid = some (g.files t.regs) := by
  induction threads generalizing w with
  | nil => simp
  | cons head rest ih =>
      obtain ⟨absent, distinct⟩ := List.nodup_cons.mp distinct
      obtain ⟨here, later⟩ := List.forall_mem_cons.mp stopped
      have different : ∀ t ∈ rest, t.tid ≠ head.tid := by
        intro t member same
        exact absent (List.mem_map.mpr ⟨t, member, same⟩)
      rw [List.forall_mem_cons, List.foldl_cons]
      constructor
      · rw [foldl_setregs_other alone different]
        exact setregs_self alone _ here
      · apply ih distinct
        intro t member
        rw [setregs_other alone _ (different t member)]
        exact later t member

theorem flushRegs_executions (g : GlobalState) (w : World K) (tid : Int) :
    executions tid (flushRegs k g w).log = executions tid w.log := by
  apply (flushRegs_performs (k := k) g w).filterMap_log (fun event => event.ran tid)
  intro request event ok noted
  cases request with
  | setregs => exact noted.elim
  | _ => exact ok.elim

/-- What spares a thread from here on leaves it alone, if its file stays as it is. -/
theorem leftAlone_of_spared (alone : k.StopsAlone) {g g' : GlobalState} {w w' : World K}
    (apart : NodesApart g) (stopped : ∀ t ∈ g.tHead, (k.getregs w.os t.tid).isSome)
    {t : Thread} (member : t ∈ g.tHead) (spared : Spared k t.tid (flushRegs k g w) w')
    (file : g'.files t.regs = g.files t.regs) : LeftAlone k t (g, w) (g', w') where
  executed := spared.executed.trans (flushRegs_executions g w t.tid)
  cached := by
    rw [file]
    exact spared.registers _ (foldl_setregs_self alone apart.tids stopped t member)

/-- A thread that was left alone is not changed by the next flush. -/
theorem LeftAlone.flush (alone : k.StopsAlone) {before : GlobalState × World K} {g : GlobalState}
    {w : World K} (apart : NodesApart g) (stopped : ∀ t ∈ g.tHead, (k.getregs w.os t.tid).isSome)
    {t : Thread} (member : t ∈ g.tHead) (left : LeftAlone k t before (g, w)) :
    k.getregs (flushRegs k g w).os t.tid = k.getregs w.os t.tid :=
  (foldl_setregs_self alone apart.tids stopped t member).trans left.cached.symm

/-! ### Register files -/

theorem getregs_files {g : GlobalState} {w : World K} {tid : Int} {file other : Ptr}
    (different : other ≠ file) : (g.getregs k w tid file).files other = g.files other := by
  unfold GlobalState.getregs
  split
  · rfl
  · exact Function.update_of_ne different ..

theorem stepUntilLoop_files {tid : Int} {file other : Ptr} {addr : Nat} {maxSteps : Int}
    (different : other ≠ file) (fuel : Nat) (count : Int) (g : GlobalState) (w : World K) :
    (stepUntilLoop k tid file addr maxSteps fuel count g w).2.1.files other = g.files other := by
  induction fuel generalizing count g w with
  | zero => rfl
  | succ fuel ih =>
      simp only [stepUntilLoop]
      split
      · rcases w.singlestep k tid 0 with ⟨_ | _, w₁⟩
        · rfl
        · rcases w₁.waitpid k .stepUntil (.thread tid) false with ⟨_, w₂⟩
          dsimp only
          split
          · exact getregs_files different
          · split <;> exact (ih ..).trans (getregs_files different)
      · rfl

theorem steppingFinishLoop_files {tid : Int} {file other : Ptr} (different : other ≠ file)
    (fuel : Nat) (counter : Int) (g : GlobalState) (w : World K) :
    (steppingFinishLoop k tid file fuel counter g w).2.1.files other = g.files other := by
  induction fuel generalizing counter g w with
  | zero => rfl
  | succ fuel ih =>
      simp only [steppingFinishLoop]
      rcases w.singlestep k tid 0 with ⟨_ | _, w₁⟩
      · rfl
      · rcases w₁.waitpid k .steppingFinish (.thread tid) false with ⟨_, w₂⟩
        dsimp only
        split
        · exact getregs_files different
        · split
          · exact (ih ..).trans (getregs_files different)
          · exact getregs_files different

theorem steppingFinish_files {g : GlobalState} (apart : NodesApart g) {t : Thread}
    (member : t ∈ g.tHead) {tid : Int} (different : t.tid ≠ tid) (fuel : Nat) (w : World K) :
    (steppingFinish k fuel g w tid).2.1.files t.regs = g.files t.regs := by
  simp only [steppingFinish]
  split
  · rfl
  · rename_i own found
    obtain rfl : own.tid = tid := by simpa using List.find?_some found
    have other : t.regs ≠ own.regs :=
      apart.regs_ne member (List.mem_of_find?_eq_some found) different
    have looped : (steppingFinishLoop k own.tid own.regs fuel 1 g
        (prepareForRun k g w).2).2.1.files t.regs = g.files t.regs :=
      steppingFinishLoop_files other fuel 1 g _
    split <;> rename_i left <;> rw [left] at looped
    · exact looped
    · exact looped
    · exact looped
    · rename_i g₁ w₁
      rcases w₁.singlestep k own.tid 0 with ⟨_ | _, w₂⟩
      · exact looped
      · rcases w₂.waitpid k .steppingFinish (.thread own.tid) false with ⟨_, w₃⟩
        exact (getregs_files other).trans looped

/-! ### Stepping over -/

/-- One round of the step-over loop on a stopped thread that has hit an entry. -/
theorem stepOver_round (alone : k.StopsAlone) {g : GlobalState} {t : Thread} (rest : List Thread)
    (status : Nat) {w : World K} (hit : hitsBreakpoint g.bHead (g.ip t))
    (stopped : (k.getregs w.os t.tid).isSome) :
    ∃ status' w', Performs k (Request.OnThread t.tid) (g, w) (g, w') ∧
      stepOver k g (t :: rest) status w = stepOver k g rest status' w' := by
  have stepOk : Request.OnThread t.tid (.singlestep t.tid 0) := rfl
  have waitOk : Request.OnThread t.tid (.waitpid .prepareForRun (.thread t.tid) false) := rfl
  have steps : (k.singlestep w.mem w.os t.tid 0).isSome := alone.singlestep_stopped 0 stopped
  obtain ⟨⟨mem, os⟩, done⟩ := Option.isSome_iff_exists.mp steps
  rcases stepped : w.singlestep k t.tid 0 with ⟨_ | _, w₁⟩
  · simp [World.singlestep, done] at stepped
  · rcases waited : waitStatus k .prepareForRun t.tid status w₁ with ⟨status₁, w₂⟩
    have upToWait : Performs k (Request.OnThread t.tid) (g, w) (g, w₂) :=
      (singlestep_performs stepped stepOk).trans (waitStatus_performs waited waitOk)
    simp only [stepOver, hit, if_true, stepped, waited]
    split
    · rcases second : w₂.singlestep k t.tid 0 with ⟨_, w₃⟩
      rcases waitedAgain : waitStatus k .prepareForRun t.tid status₁ w₃ with ⟨status₂, w₄⟩
      have again : Performs k (Request.OnThread t.tid) (g, w₂) (g, w₄) :=
        (singlestep_performs second stepOk).trans (waitStatus_performs waitedAgain waitOk)
      exact ⟨status₂, w₄, upToWait.trans again, rfl⟩
    · exact ⟨status₁, w₂, upToWait, rfl⟩

/-- With every thread stopped the step-over loop does not give up. It spares a thread, if
the ones it steps all have another id. -/
theorem stepOver_returns (alone : k.StopsAlone) {g : GlobalState} {threads : List Thread}
    (distinct : (threads.map (·.tid)).Nodup) (status : Nat) {w : World K}
    (stopped : ∀ t ∈ threads, (k.getregs w.os t.tid).isSome) :
    ∃ status' w', stepOver k g threads status w = (some status', w') ∧
      ∀ other, (∀ t ∈ threads, hitsBreakpoint g.bHead (g.ip t) → t.tid ≠ other) →
        Spared k other w w' := by
  induction threads generalizing status w with
  | nil => exact ⟨status, w, rfl, fun _ _ => .of_same rfl rfl⟩
  | cons head rest ih =>
      obtain ⟨absent, distinct⟩ := List.nodup_cons.mp distinct
      obtain ⟨here, later⟩ := List.forall_mem_cons.mp stopped
      by_cases hit : hitsBreakpoint g.bHead (g.ip head)
      · obtain ⟨status₁, w₁, performed, rounds⟩ := stepOver_round alone rest status hit here
        have stillStopped : ∀ t ∈ rest, (k.getregs w₁.os t.tid).isSome := by
          intro t member
          have different : t.tid ≠ head.tid := by
            intro same
            exact absent (List.mem_map.mpr ⟨t, member, same⟩)
          obtain ⟨regs, there⟩ := Option.isSome_iff_exists.mp (later t member)
          rw [(Spared.of_performs alone different performed).registers regs there]
          rfl
        obtain ⟨status', w', done, spares⟩ := ih distinct status₁ stillStopped
        refine ⟨status', w', rounds.trans done, ?_⟩
        intro other apart
        obtain ⟨apartHead, apartRest⟩ := List.forall_mem_cons.mp apart
        exact (Spared.of_performs alone (apartHead hit).symm performed).trans
          (spares other apartRest)
      · obtain ⟨status', w', done, spares⟩ := ih distinct status later
        refine ⟨status', w', ?_, ?_⟩
        · rw [stepOver, if_neg hit]
          exact done
        · intro other apart
          exact spares other (List.forall_mem_cons.mp apart).2

/-- `prepare_for_run` spares the threads that have hit no entry, unless one with their
id has, and lets the others run. -/
theorem prepareForRun_spares (alone : k.StopsAlone) {g : GlobalState} {w : World K}
    (apart : NodesApart g) (stopped : ∀ t ∈ g.tHead, (k.getregs w.os t.tid).isSome) :
    (∀ other, (∀ t ∈ g.tHead, hitsBreakpoint g.bHead (g.ip t) → t.tid ≠ other) →
      Spared k other (flushRegs k g w) (prepareForRun k g w).2) ∧
    ∀ t ∈ g.tHead, hitsBreakpoint g.bHead (g.ip t) → ∃ memory earlier,
      .stepped t.tid 0 memory :: (earlier ++ w.log) <:+ (prepareForRun k g w).2.log := by
  have flushed : ∀ t ∈ g.tHead, (k.getregs (flushRegs k g w).os t.tid).isSome := by
    intro t member
    rw [flushRegs, foldl_setregs_self alone apart.tids stopped t member]
    rfl
  obtain ⟨status, w', done, spares⟩ := stepOver_returns alone (g := g) apart.tids 0 flushed
  have prepared : (prepareForRun k g w).2 = armBreakpoints g w' := by
    simp only [prepareForRun, done]
  rw [prepared]
  constructor
  · intro other away
    rw [armBreakpoints_eq]
    exact (spares other away).trans (.of_same rfl rfl)
  · intro t member hit
    obtain ⟨memory, earlier, ran⟩ := stepOver_ran done member hit
    obtain ⟨between, before⟩ := (flushRegs_performs (k := k) g w).log
    refine ⟨memory, earlier ++ between, ?_⟩
    rw [armBreakpoints_eq, List.append_assoc]
    exact before ▸ ran

/-- A thread whose run was noted has one execution more. -/
theorem executions_ne_of_ran {tid : Int} {memory : Memory} {earlier old log : List Event}
    (ran : .stepped tid 0 memory :: (earlier ++ old) <:+ log) :
    executions tid log ≠ executions tid old := by
  intro same
  obtain ⟨later, rfl⟩ := ran
  have lengths := congrArg List.length same
  simp [executions, List.filterMap_append, Event.ran] at lengths
  omega

/-! ### The three commands -/

section Commands

variable {g : GlobalState} {w : World K} {t : Thread} {tid : Int}

theorem singlestep_leavesAlone (alone : k.StopsAlone) (apart : NodesApart g)
    (stopped : ∀ t ∈ g.tHead, (k.getregs w.os t.tid).isSome) (member : t ∈ g.tHead)
    (different : t.tid ≠ tid) : LeftAlone k t (g, w) (singlestep k g w tid).2 := by
  have performed : Performs k (Request.OnThread tid) (g, flushRegs k g w) (g, _) :=
    Performs.single (.singlestep tid (takeSignal tid g.tHead 0).1) rfl
  exact leftAlone_of_spared alone apart stopped member (.of_performs alone different performed) rfl

theorem stepUntil_leavesAlone (alone : k.StopsAlone) (apart : NodesApart g)
    (stopped : ∀ t ∈ g.tHead, (k.getregs w.os t.tid).isSome) (member : t ∈ g.tHead)
    (different : t.tid ≠ tid) (fuel : Nat) (addr : Nat) (maxSteps : Int) :
    LeftAlone k t (g, w) (stepUntil k fuel g w tid addr maxSteps).2 := by
  simp only [stepUntil]
  split
  · exact leftAlone_of_spared alone apart stopped member (.of_same rfl rfl) rfl
  · rename_i own last
    have listed := List.mem_of_getLast? last
    obtain ⟨ownMember, same⟩ := List.mem_filter.mp listed
    obtain rfl : own.tid = tid := by simpa using same
    have performed := (stepUntilLoop_performs (k := k) own.tid own.regs addr maxSteps fuel 0 g
      (flushRegs k g w)).mono fun _ => Request.Stepping.onThread
    apply leftAlone_of_spared alone apart stopped member (.of_performs alone different performed)
    exact stepUntilLoop_files (apart.regs_ne member ownMember different) fuel 0 g _

theorem steppingFinish_leavesAlone (alone : k.StopsAlone) (apart : NodesApart g)
    (stopped : ∀ t ∈ g.tHead, (k.getregs w.os t.tid).isSome) (member : t ∈ g.tHead)
    (different : t.tid ≠ tid)
    (away : ∀ other ∈ g.tHead, hitsBreakpoint g.bHead (g.ip other) → other.tid ≠ t.tid)
    (fuel : Nat) : LeftAlone k t (g, w) (steppingFinish k fuel g w tid).2 := by
  have prepared := (prepareForRun_spares alone apart stopped).1 t.tid away
  obtain ⟨g', w', performed, ended⟩ := steppingFinish_spec (k := k) fuel g w tid
  have stepped : Spared k t.tid (prepareForRun k g w).2 w' :=
    .of_performs alone different (performed.mono fun _ => Request.Stepping.onThread)
  apply leftAlone_of_spared alone apart stopped member
  · apply (prepared.trans stepped).trans
    rcases ended with looping | failed | done
    · rw [looping]
      exact .of_same rfl rfl
    · rw [failed]
      exact .of_same rfl rfl
    · rw [done, restoreBreakpoints_eq]
      exact .of_same rfl rfl
  · exact steppingFinish_files apart member different fuel w

/-- A thread that is stepped over has been let run. -/
theorem steppingFinish_runs (alone : k.StopsAlone) (apart : NodesApart g)
    (stopped : ∀ t ∈ g.tHead, (k.getregs w.os t.tid).isSome) (member : t ∈ g.tHead)
    (hit : hitsBreakpoint g.bHead (g.ip t)) (fuel : Nat) :
    ¬ LeftAlone k t (g, w) (steppingFinish k fuel g w tid).2 := by
  intro left
  obtain ⟨memory, earlier, ran⟩ := (prepareForRun_spares alone apart stopped).2 t member hit
  obtain ⟨g', w', performed, ended⟩ := steppingFinish_spec (k := k) fuel g w tid
  have log : (steppingFinish k fuel g w tid).2.2.log = w'.log := by
    rcases ended with looping | failed | done
    · rw [looping]
    · rw [failed]
    · rw [done, restoreBreakpoints_eq]
  refine executions_ne_of_ran (ran.trans ?_) left.executed
  rw [log]
  exact performed.log

end Commands

/-- In every state of a session in which the threads are stopped: `singlestep` and
`step_until` leave every other thread alone, and so does `stepping_finish` exactly if none
of them is at an entry of the table. -/
theorem others_left_alone_iff (alone : k.StopsAlone) {world : World K} {calls : List Call}
    {s : Session K} (reached : (session k pid).run (.initial world) calls = some s)
    (stopped : ∀ t ∈ s.g.tHead, (k.getregs s.w.os t.tid).isSome) (tid : Int) :
    (∀ t ∈ s.g.tHead, t.tid ≠ tid → LeftAlone k t (s.g, s.w) (singlestep k s.g s.w tid).2) ∧
    (∀ fuel addr maxSteps, ∀ t ∈ s.g.tHead, t.tid ≠ tid →
      LeftAlone k t (s.g, s.w) (stepUntil k fuel s.g s.w tid addr maxSteps).2) ∧
    ∀ fuel, (∀ t ∈ s.g.tHead, t.tid ≠ tid →
        LeftAlone k t (s.g, s.w) (steppingFinish k fuel s.g s.w tid).2) ↔
      ∀ t ∈ s.g.tHead, t.tid ≠ tid → ¬ hitsBreakpoint s.g.bHead (s.g.ip t) := by
  have apart := session_nodesApart reached
  refine ⟨fun t member different => ?_, fun fuel addr maxSteps t member different => ?_,
    fun fuel => ?_⟩
  · exact singlestep_leavesAlone alone apart stopped member different
  · exact stepUntil_leavesAlone alone apart stopped member different fuel addr maxSteps
  · constructor
    · intro left t member different hit
      exact steppingFinish_runs alone apart stopped member hit fuel (left t member different)
    · intro away t member different
      apply steppingFinish_leavesAlone alone apart stopped member different _ fuel
      intro other otherMember hit same
      exact away other otherMember (same.trans_ne different) hit

theorem scripted_stopsAlone : scripted.StopsAlone where
  setregs_stopped _ stopped := by simpa [scripted] using stopped
  setregs_self done := by
    obtain ⟨_, -, rfl⟩ := Option.map_eq_some_iff.mp done
    exact Function.update_self ..
  setregs_other done different := by
    obtain ⟨_, -, rfl⟩ := Option.map_eq_some_iff.mp done
    exact Function.update_of_ne different ..
  singlestep_stopped _ _ := rfl
  singlestep_other done _ there := by
    cases done
    exact there
  waitpid_other _ there := there

/-- Two threads, both stopped at `0x1000`. -/
def twoStopped : World Script := .nops { registers := fun _ => some fun _ => 0x1000 }

/-- With no breakpoint where the other thread stands, stepping the first one to the end
of its function leaves it alone. -/
theorem others_left_alone_elsewhere :
    ∃ s, (session scripted 1).run (.initial twoStopped)
        [.registerThread 1, .registerThread 2, .registerBreakpoint 0x2000] = some s ∧
      ∀ fuel, ∀ t ∈ s.g.tHead, t.tid ≠ 1 →
        LeftAlone scripted t (s.g, s.w) (steppingFinish scripted fuel s.g s.w 1).2 := by
  have reached : (session scripted 1).run (.initial twoStopped)
      [.registerThread 1, .registerThread 2, .registerBreakpoint 0x2000] = some _ := rfl
  have left := others_left_alone_iff scripted_stopsAlone reached (fun _ _ => rfl) 1
  refine ⟨_, reached, fun fuel => (left.2.2 fuel).mpr ?_⟩
  decide

/-- With a breakpoint there the other thread executes an instruction. -/
theorem other_thread_stepped :
    ∃ s t, (session scripted 1).run (.initial twoStopped)
        [.registerThread 1, .registerThread 2, .registerBreakpoint 0x1000] = some s ∧
      t ∈ s.g.tHead ∧ t.tid ≠ 1 ∧ (∀ t ∈ s.g.tHead, (scripted.getregs s.w.os t.tid).isSome) ∧
      ¬ LeftAlone scripted t (s.g, s.w) (steppingFinish scripted 1 s.g s.w 1).2 := by
  refine ⟨_, ⟨2, 1, 0⟩, rfl, List.mem_cons_self, by decide, fun _ _ => rfl, ?_⟩
  intro left
  exact absurd (congrArg List.length left.executed) (by decide)

end Libdebug.Cffi
