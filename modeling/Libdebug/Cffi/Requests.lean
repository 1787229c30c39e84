import Libdebug.Cffi.Wait

/-!
What the functions of the C layer can do to the world: each is a sequence of
requests to the kernel. `Performs allowed` relates two states when such a sequence,
of requests satisfying `allowed`, leads from one to the other; `Performs.invariant`
turns what every allowed request preserves into what the function preserves.
-/

namespace Libdebug.Cffi

open Libdebug.Foundation

inductive Request where
  | setregs (tid : Int) (regs : UserRegs)
  | getregs (tid : Int) (file : Ptr)
  | singlestep (tid : Int) (signal : Nat)
  | cont (syscalls : Bool) (tid : Int) (signal : Nat)
  | tgkill (pid tid : Int) (signal : Nat)
  | waitpid (site : WaitSite) (target : Target) (nohang : Bool)

variable {K : Type} (k : Kernel K)

def Request.perform : Request → GlobalState × World K → GlobalState × World K
  | .setregs tid regs, (g, w) => (g, w.setregs k tid regs)
  | .getregs tid file, (g, w) => (g.getregs k w tid file, w)
  | .singlestep tid signal, (g, w) => (g, (w.singlestep k tid signal).2)
  | .cont syscalls tid signal, (g, w) => (g, w.cont k syscalls tid signal)
  | .tgkill pid tid signal, (g, w) => (g, w.tgkill k pid tid signal)
  | .waitpid site target nohang, (g, w) => (g, (w.waitpid k site target nohang).2)

/-- The event that a request notes in the history, if it succeeds. -/
def Request.Notes : Request → Event → Prop
  | .singlestep tid signal, .stepped stepped forwarded _ => stepped = tid ∧ forwarded = signal
  | .cont _ tid signal, .resumed resumed forwarded _ => resumed = tid ∧ forwarded = signal
  | .waitpid site _ _, .reaped reaping _ => reaping = site
  | _, _ => False

theorem Request.perform_log (request : Request) (s : GlobalState × World K) :
    (request.perform k s).2.log = s.2.log ∨
      ∃ event, request.Notes event ∧ (request.perform k s).2.log = event :: s.2.log := by
  obtain ⟨g, w⟩ := s
  cases request with
  | getregs | tgkill => exact .inl rfl
  | setregs tid regs =>
      simp only [perform, World.setregs]
      split <;> exact .inl rfl
  | singlestep tid signal =>
      simp only [perform, World.singlestep]
      split
      · exact .inl rfl
      · exact .inr ⟨.stepped tid signal w.mem, ⟨rfl, rfl⟩, rfl⟩
  | cont syscalls tid signal =>
      simp only [perform, World.cont]
      split
      · exact .inl rfl
      · exact .inr ⟨.resumed tid signal w.mem, ⟨rfl, rfl⟩, rfl⟩
  | waitpid site target nohang =>
      simp only [perform, World.waitpid]
      split
      · exact .inl rfl
      · rename_i status _ _ _
        exact .inr ⟨.reaped site status, rfl, rfl⟩

inductive Performs (allowed : Request → Prop) :
    GlobalState × World K → GlobalState × World K → Prop where
  | refl (s) : Performs allowed s s
  | head {s t} (request : Request) : allowed request →
      Performs allowed (request.perform k s) t → Performs allowed s t

variable {k} {allowed other : Request → Prop} {s t u : GlobalState × World K}

namespace Performs

theorem single (request : Request) (ok : allowed request) :
    Performs k allowed s (request.perform k s) :=
  .head request ok (.refl _)

theorem trans (first : Performs k allowed s t) (second : Performs k allowed t u) :
    Performs k allowed s u := by
  induction first with
  | refl => exact second
  | head request ok _ ih => exact .head request ok (ih second)

theorem mono (weaker : ∀ request, allowed request → other request)
    (performed : Performs k allowed s t) : Performs k other s t := by
  induction performed with
  | refl => exact .refl _
  | head request ok _ ih => exact .head request (weaker _ ok) ih

theorem invariant {motive : GlobalState × World K → Prop}
    (preserved : ∀ request s, allowed request → motive s → motive (request.perform k s))
    (performed : Performs k allowed s t) (initial : motive s) : motive t := by
  induction performed with
  | refl => exact initial
  | head request ok _ ih => exact ih (preserved _ _ ok initial)

/-- No request touches the table of breakpoints. -/
theorem bHead (performed : Performs k allowed s t) : t.1.bHead = s.1.bHead := by
  refine performed.invariant (motive := fun t => t.1.bHead = s.1.bHead) ?_ rfl
  intro request t _ same
  cases request with
  | getregs tid file => simpa [Request.perform] using same
  | _ => exact same

/-- Nor the list of threads. -/
theorem tHead (performed : Performs k allowed s t) : t.1.tHead = s.1.tHead := by
  refine performed.invariant (motive := fun t => t.1.tHead = s.1.tHead) ?_ rfl
  intro request t _ same
  cases request with
  | getregs tid file => simpa [Request.perform] using same
  | _ => exact same

/-- Nor does one allocate. -/
theorem fresh (performed : Performs k allowed s t) : t.1.fresh = s.1.fresh := by
  refine performed.invariant (motive := fun t => t.1.fresh = s.1.fresh) ?_ rfl
  intro request t _ same
  cases request with
  | getregs tid file => simpa [Request.perform] using same
  | _ => exact same

/-- Requests only add to the history. -/
theorem log (performed : Performs k allowed s t) : s.2.log <:+ t.2.log := by
  refine performed.invariant (motive := fun t => s.2.log <:+ t.2.log) ?_ (List.suffix_refl _)
  intro request t _ grown
  refine grown.trans ?_
  rcases request.perform_log k t with same | ⟨event, -, added⟩
  · simp only [same, List.suffix_refl]
  · simp only [added, List.suffix_cons]

/-- A part of the history to which the requests do not add. -/
theorem filterMap_log {β : Type} (f : Event → Option β) (performed : Performs k allowed s t)
    (silent : ∀ request event, allowed request → request.Notes event → f event = none) :
    t.2.log.filterMap f = s.2.log.filterMap f := by
  refine performed.invariant
    (motive := fun t => t.2.log.filterMap f = s.2.log.filterMap f) ?_ rfl
  intro request t ok same
  rcases request.perform_log k t with unchanged | ⟨event, noted, added⟩
  · rw [unchanged, same]
  · rw [added, List.filterMap_cons_none (silent request event ok noted), same]

/-- While the tracee leaves its text alone, so does every request. -/
theorem text {text : Set Nat} (keeps : k.KeepsText text) (performed : Performs k allowed s t) :
    ∀ x ∈ text, t.2.mem x = s.2.mem x := by
  refine performed.invariant (motive := fun t => ∀ x ∈ text, t.2.mem x = s.2.mem x) ?_
    (fun _ _ => rfl)
  rintro request ⟨g, w⟩ _ same x member
  rw [← same x member]
  cases request with
  | setregs tid regs =>
      simp only [Request.perform, World.setregs]
      split <;> rfl
  | getregs tid file => rfl
  | tgkill pid tid signal => rfl
  | singlestep tid signal =>
      simp only [Request.perform, World.singlestep]
      split
      · rfl
      · rename_i done
        exact keeps.singlestep done x member
  | cont syscalls tid signal =>
      simp only [Request.perform, World.cont]
      split
      · rfl
      · rename_i done
        exact keeps.cont done x member
  | waitpid site target nohang =>
      have kept := keeps.waitpid w.mem w.os target nohang x member
      simp only [Request.perform, World.waitpid]
      split <;> rename_i reported <;> simpa [reported] using kept

end Performs

/-! ### The requests of each function -/

/-- The requests of a stepping loop on one thread, waiting at `site`. -/
def Request.Stepping (site : WaitSite) (tid : Int) : Request → Prop
  | .singlestep stepped signal => stepped = tid ∧ signal = 0
  | .waitpid waiting target _ => waiting = site ∧ target = .thread tid
  | .getregs read _ => read = tid
  | _ => False

/-- The requests of the step-over loop: on threads of the list that have hit an entry
of the table. -/
def Request.SteppingOver (g : GlobalState) (threads : List Thread) : Request → Prop
  | .singlestep tid signal =>
      signal = 0 ∧ ∃ t ∈ threads, t.tid = tid ∧ hitsBreakpoint g.bHead (g.ip t)
  | .waitpid site target _ => site = .prepareForRun ∧ ∃ t ∈ threads, target = .thread t.tid
  | _ => False

def Request.Flushing : Request → Prop
  | .setregs _ _ => True
  | _ => False

/-- The requests that collect statuses and refresh register files. -/
def Request.Collecting : Request → Prop
  | .getregs _ _ | .tgkill _ _ _ => True
  | .waitpid site _ _ => site = .waitAllAndUpdateRegs
  | _ => False

def Request.Resuming (threads : List Thread) : Request → Prop
  | .cont _ tid signal => ∃ t ∈ threads, t.tid = tid ∧ t.signalToForward = signal
  | _ => False

/-- A left fold over a list of requests performs them. -/
theorem Performs.foldl_world {α : Type} {g : GlobalState} (action : World K → α → World K)
    (request : α → Request) (xs : List α) (w : World K)
    (same : ∀ x ∈ xs, ∀ w, (request x).perform k (g, w) = (g, action w x))
    (ok : ∀ x ∈ xs, allowed (request x)) :
    Performs k allowed (g, w) (g, xs.foldl action w) := by
  induction xs generalizing w with
  | nil => exact .refl _
  | cons x rest ih =>
      obtain ⟨here, later⟩ := List.forall_mem_cons.mp same
      obtain ⟨okHere, okLater⟩ := List.forall_mem_cons.mp ok
      refine .head (request x) okHere ?_
      rw [here]
      exact ih (action w x) later okLater

theorem flushRegs_performs (g : GlobalState) (w : World K) :
    Performs k Request.Flushing (g, w) (g, flushRegs k g w) :=
  Performs.foldl_world _ (fun t => .setregs t.tid (g.files t.regs)) g.tHead w
    (fun _ _ _ => rfl) (fun _ _ => trivial)

theorem singlestep_performs {g : GlobalState} {w next : World K} {tid : Int} {signal : Nat}
    {stepped : Bool} (done : w.singlestep k tid signal = (stepped, next))
    (ok : allowed (.singlestep tid signal)) : Performs k allowed (g, w) (g, next) := by
  have performed := Performs.single (k := k) (s := (g, w)) (.singlestep tid signal) ok
  rwa [Request.perform, done] at performed

theorem waitpid_performs {g : GlobalState} {w next : World K} {site : WaitSite} {target : Target}
    {nohang : Bool} {result : Option ThreadStatus}
    (done : w.waitpid k site target nohang = (result, next))
    (ok : allowed (.waitpid site target nohang)) : Performs k allowed (g, w) (g, next) := by
  have performed := Performs.single (k := k) (s := (g, w)) (.waitpid site target nohang) ok
  rwa [Request.perform, done] at performed

theorem waitStatus_performs {g : GlobalState} {w next : World K} {site : WaitSite} {tid : Int}
    {before after : Nat} (done : waitStatus k site tid before w = (after, next))
    (ok : allowed (.waitpid site (.thread tid) false)) :
    Performs k allowed (g, w) (g, next) := by
  unfold waitStatus at done
  rcases reported : w.waitpid k site (.thread tid) false with ⟨_ | status, later⟩ <;>
  · simp only [reported, Prod.mk.injEq] at done
    obtain ⟨-, rfl⟩ := done
    exact waitpid_performs reported ok

theorem stepOver_performs (g : GlobalState) (threads : List Thread) (status : Nat)
    (w : World K) :
    Performs k (Request.SteppingOver g threads) (g, w) (g, (stepOver k g threads status w).2) := by
  induction threads generalizing status w with
  | nil => exact .refl _
  | cons t rest ih =>
      have later : ∀ status w, Performs k (Request.SteppingOver g (t :: rest)) (g, w)
          (g, (stepOver k g rest status w).2) := fun status w =>
        (ih status w).mono fun request ok => by
          cases request <;> simp_all [Request.SteppingOver]
      have waitOk : Request.SteppingOver g (t :: rest)
          (.waitpid .prepareForRun (.thread t.tid) false) :=
        ⟨rfl, t, List.mem_cons_self, rfl⟩
      simp only [stepOver]
      split
      · rename_i hit
        have stepOk : Request.SteppingOver g (t :: rest) (.singlestep t.tid 0) :=
          ⟨rfl, t, List.mem_cons_self, rfl, hit⟩
        rcases first : w.singlestep k t.tid 0 with ⟨_ | _, w₁⟩
        · exact singlestep_performs first stepOk
        · rcases waited : waitStatus k .prepareForRun t.tid status w₁ with ⟨status₁, w₂⟩
          have upToWait := (singlestep_performs (g := g) first stepOk).trans
            (waitStatus_performs waited waitOk)
          simp only [waited]
          split
          · rcases second : w₂.singlestep k t.tid 0 with ⟨_, w₃⟩
            rcases waitedAgain : waitStatus k .prepareForRun t.tid status₁ w₃ with ⟨status₂, w₄⟩
            exact upToWait.trans <| (singlestep_performs second stepOk).trans <|
              (waitStatus_performs waitedAgain waitOk).trans (later _ _)
          · exact upToWait.trans (later _ _)
      · exact later _ _

theorem stepUntilLoop_performs (tid : Int) (file : Ptr) (addr : Nat) (maxSteps : Int)
    (fuel : Nat) (count : Int) (g : GlobalState) (w : World K) :
    Performs k (Request.Stepping .stepUntil tid) (g, w)
      (stepUntilLoop k tid file addr maxSteps fuel count g w).2 := by
  induction fuel generalizing count g w with
  | zero => exact .refl _
  | succ fuel ih =>
      simp only [stepUntilLoop]
      split
      · rcases stepped : w.singlestep k tid 0 with ⟨_ | _, w₁⟩
        · exact singlestep_performs stepped ⟨rfl, rfl⟩
        · rcases waited : w₁.waitpid k .stepUntil (.thread tid) false with ⟨_, w₂⟩
          have refreshed : Performs k (Request.Stepping .stepUntil tid) (g, w)
              (g.getregs k w₂ tid file, w₂) :=
            (singlestep_performs stepped ⟨rfl, rfl⟩).trans <|
              (waitpid_performs waited ⟨rfl, rfl⟩).trans <|
                Performs.single (.getregs tid file) rfl
          simp only [waited]
          split
          · exact refreshed
          · split
            · exact refreshed.trans (ih ..)
            · exact refreshed.trans (ih ..)
      · exact .refl _

theorem steppingFinishLoop_performs (tid : Int) (file : Ptr) (fuel : Nat) (counter : Int)
    (g : GlobalState) (w : World K) :
    Performs k (Request.Stepping .steppingFinish tid) (g, w)
      (steppingFinishLoop k tid file fuel counter g w).2 := by
  induction fuel generalizing counter g w with
  | zero => exact .refl _
  | succ fuel ih =>
      simp only [steppingFinishLoop]
      rcases stepped : w.singlestep k tid 0 with ⟨_ | _, w₁⟩
      · exact singlestep_performs stepped ⟨rfl, rfl⟩
      · rcases waited : w₁.waitpid k .steppingFinish (.thread tid) false with ⟨_, w₂⟩
        have refreshed : Performs k (Request.Stepping .steppingFinish tid) (g, w)
            (g.getregs k w₂ tid file, w₂) :=
          (singlestep_performs stepped ⟨rfl, rfl⟩).trans <|
            (waitpid_performs waited ⟨rfl, rfl⟩).trans <|
              Performs.single (.getregs tid file) rfl
        simp only [waited]
        split
        · exact refreshed
        · split
          · exact refreshed.trans (ih ..)
          · exact refreshed

/-- Waiting in `wait_all_and_update_regs` is a request of that function. -/
theorem collecting_waitpid (target : Target) (nohang : Bool) :
    Request.Collecting (.waitpid .waitAllAndUpdateRegs target nohang) := rfl

theorem interruptThreads_performs (pid : Int) (threads : List Thread) (tempStatus : Nat)
    (head : ThreadStatus) (older : List ThreadStatus) (g : GlobalState) (w : World K) :
    Performs k Request.Collecting (g, w)
      (interruptThreads k pid threads tempStatus head older g w).2 := by
  induction threads generalizing tempStatus head older g w with
  | nil => exact .refl _
  | cons t rest ih =>
      simp only [interruptThreads]
      split
      · exact ih ..
      · rcases read : k.getregs w.os t.tid with _ | regs
        · rcases waited : (w.tgkill k pid t.tid SIGSTOP).waitpid k .waitAllAndUpdateRegs
              (.thread t.tid) false with ⟨_ | status, w₁⟩ <;>
          · refine .head (.tgkill pid t.tid SIGSTOP) trivial ?_
            simp only [Request.perform]
            exact (waitpid_performs waited (collecting_waitpid ..)).trans (ih ..)
        · refine .head (.getregs t.tid t.regs) trivial ?_
          simpa [Request.perform, GlobalState.getregs, read] using ih tempStatus head older _ _

theorem drainStatuses_performs (pid : Int) (fuel : Nat) (statuses : List ThreadStatus)
    (g : GlobalState) (w : World K) :
    Performs k Request.Collecting (g, w) (g, (drainStatuses k pid fuel statuses w).2) := by
  induction fuel generalizing statuses w with
  | zero => exact .refl _
  | succ fuel ih =>
      simp only [drainStatuses]
      rcases waited : w.waitpid k .waitAllAndUpdateRegs (.group pid) true with ⟨_ | status, w₁⟩
      · exact waitpid_performs waited (collecting_waitpid ..)
      · exact (waitpid_performs waited (collecting_waitpid ..)).trans (ih ..)

/-- The loop that refreshes the register files of a list of threads. -/
theorem getregsLoop_performs (threads : List Thread) (g : GlobalState) (w : World K) :
    Performs k Request.Collecting (g, w)
      (threads.foldl (fun g t => g.getregs k w t.tid t.regs) g, w) := by
  induction threads generalizing g with
  | nil => exact .refl _
  | cons t rest ih => exact .head (.getregs t.tid t.regs) trivial (ih _)

theorem resumeLoop_performs (syscalls : Bool) (threads : List Thread) (g : GlobalState)
    (w : World K) :
    Performs k (Request.Resuming threads) (g, w)
      (g, threads.foldl (fun w t => w.cont k syscalls t.tid t.signalToForward) w) :=
  Performs.foldl_world _ (fun t => .cont syscalls t.tid t.signalToForward) threads w
    (fun _ _ _ => rfl) (fun t member => ⟨t, member, rfl, rfl⟩)

/-! ### Whole functions -/

theorem singlestep_spec (g : GlobalState) (w : World K) (tid : Int) :
    ∃ signal next, singlestep k g w tid =
        (if (World.singlestep k (flushRegs k g w) tid signal).1 then 0 else -1,
          { g with tHead := (takeSignal tid g.tHead 0).2 }, next) ∧
      Performs k (fun r => r.Flushing ∨ r = .singlestep tid signal) (g, w) (g, next) := by
  refine ⟨(takeSignal tid g.tHead 0).1, _, rfl, ?_⟩
  exact ((flushRegs_performs g w).mono fun _ => .inl).trans
    (Performs.single (.singlestep tid _) (.inr rfl))

theorem stepUntil_performs (fuel : Nat) (g : GlobalState) (w : World K) (tid : Int) (addr : Nat)
    (maxSteps : Int) :
    Performs k (fun r => r.Flushing ∨ r.Stepping .stepUntil tid) (g, w)
      (stepUntil k fuel g w tid addr maxSteps).2 := by
  have flushed : Performs k (fun r => r.Flushing ∨ r.Stepping .stepUntil tid) (g, w)
      (g, flushRegs k g w) := (flushRegs_performs g w).mono fun _ => .inl
  unfold stepUntil
  split
  · exact flushed
  · exact flushed.trans ((stepUntilLoop_performs ..).mono fun _ => .inr)

/-- `prepare_for_run` flushes and steps over, then either gives up or arms. -/
theorem prepareForRun_spec (g : GlobalState) (w : World K) :
    ∃ next, Performs k (fun r => r.Flushing ∨ r.SteppingOver g g.tHead) (g, w) (g, next) ∧
      (prepareForRun k g w = (-1, next) ∨
        ∃ status, stepOver k g g.tHead 0 (flushRegs k g w) = (some status, next) ∧
          prepareForRun k g w = (↑status, armBreakpoints g next)) := by
  have performed : Performs k (fun r => r.Flushing ∨ r.SteppingOver g g.tHead) (g, w)
      (g, (stepOver k g g.tHead 0 (flushRegs k g w)).2) :=
    ((flushRegs_performs g w).mono fun _ => .inl).trans
      ((stepOver_performs g g.tHead 0 _).mono fun _ => .inr)
  unfold prepareForRun
  rcases steppedOver : stepOver k g g.tHead 0 (flushRegs k g w) with ⟨_ | status, next⟩ <;>
    rw [steppedOver] at performed
  · exact ⟨next, performed, .inl (by simp only [steppedOver])⟩
  · exact ⟨next, performed, .inr ⟨status, rfl, by simp only [steppedOver]⟩⟩

/-- `stepping_finish` steps from where `prepare_for_run` left off; when it returns
0 it has restored the breakpoints. -/
theorem steppingFinish_spec (fuel : Nat) (g : GlobalState) (w : World K) (tid : Int) :
    ∃ g' w', Performs k (Request.Stepping .steppingFinish tid)
        (g, (prepareForRun k g w).2) (g', w') ∧
      (steppingFinish k fuel g w tid = (none, g', w') ∨
        steppingFinish k fuel g w tid = (some (-1), g', w') ∨
        steppingFinish k fuel g w tid = (some 0, g', restoreBreakpoints g' w')) := by
  unfold steppingFinish
  rcases prepareForRun k g w with ⟨-, w₀⟩
  dsimp only
  split
  · exact ⟨g, w₀, .refl _, .inr (.inl rfl)⟩
  · rename_i t _
    have looped := steppingFinishLoop_performs (k := k) tid t.regs fuel 1 g w₀
    split <;> rename_i left <;> rw [left] at looped
    · exact ⟨_, _, looped, .inl rfl⟩
    · exact ⟨_, _, looped, .inr (.inl rfl)⟩
    · exact ⟨_, _, looped, .inr (.inr rfl)⟩
    · rename_i g₁ w₁
      rcases stepped : w₁.singlestep k tid 0 with ⟨_ | _, w₂⟩
      · exact ⟨g₁, w₂, looped.trans (singlestep_performs stepped ⟨rfl, rfl⟩), .inr (.inl rfl)⟩
      · rcases waited : w₂.waitpid k .steppingFinish (.thread tid) false with ⟨_, w₃⟩
        refine ⟨g₁.getregs k w₃ tid t.regs, w₃, ?_, .inr (.inr ?_)⟩
        · exact looped.trans <| (singlestep_performs stepped ⟨rfl, rfl⟩).trans <|
            (waitpid_performs waited ⟨rfl, rfl⟩).trans (Performs.single (.getregs tid t.regs) rfl)
        · simp only [waited]

/-- `wait_all_and_update_regs` collects statuses; when it returns a list it has
restored the breakpoints. -/
theorem waitAllAndUpdateRegs_spec (fuel : Nat) (g : GlobalState) (w : World K) (pid : Int) :
    ∃ g' w', Performs k Request.Collecting (g, w) (g', w') ∧
      (waitAllAndUpdateRegs k fuel g w pid = (.polling, g', w') ∨
        waitAllAndUpdateRegs k fuel g w pid = (.null, g', w') ∨
        ∃ list, waitAllAndUpdateRegs k fuel g w pid =
          (.statuses list, g', restoreBreakpoints g' w')) := by
  unfold waitAllAndUpdateRegs
  rcases first : w.waitpid k .waitAllAndUpdateRegs (.group pid) false with ⟨_ | head, w₁⟩
  · exact ⟨g, w₁, waitpid_performs first (collecting_waitpid ..), .inr (.inl rfl)⟩
  · have interrupted := interruptThreads_performs (k := k) pid g.tHead 0 head [] g w₁
    rcases stopped : interruptThreads k pid g.tHead 0 head [] g w₁ with ⟨list, g₂, w₂⟩
    have drained := drainStatuses_performs (k := k) pid fuel list g₂ w₂
    rw [stopped] at interrupted
    have upToDrain := (waitpid_performs (g := g) first (collecting_waitpid ..)).trans
      (interrupted.trans drained)
    simp only [stopped]
    rcases polled : drainStatuses k pid fuel list w₂ with ⟨_ | list, w₃⟩ <;>
      rw [polled] at upToDrain
    · exact ⟨g₂, w₃, upToDrain, .inl rfl⟩
    · exact ⟨_, w₃, upToDrain.trans (getregsLoop_performs g₂.tHead g₂ w₃),
        .inr (.inr ⟨list, rfl⟩)⟩

end Libdebug.Cffi
