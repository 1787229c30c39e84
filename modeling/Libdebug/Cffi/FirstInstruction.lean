import Libdebug.Cffi.GhostTraps
import Libdebug.Cffi.Nodes
import Mathlib.Data.List.Nodup
import Mathlib.Data.Set.Basic

/-!
What a thread executes first when it is resumed.

Registering and switching on write the trap byte at once, while `singlestep`,
`step_until` and the step-over loop of `prepare_for_run` run the thread in memory as
it is. The instruction at the instruction pointer is therefore the program's own as
long as none of its bytes has become a trap since the last stop; and a thread that
is not stepped over must not have a breakpoint inside its instruction either.
-/

namespace Libdebug.Cffi

open Libdebug.Foundation

variable {K : Type} {k : Kernel K} {pid : Int} {own : Memory} {text : Set Nat}

/-- The memory in which a thread runs, where the event lets it run. -/
def Event.ran (tid : Int) : Event → Option Memory
  | .stepped ran _ memory | .resumed ran _ memory => if ran = tid then some memory else none
  | _ => none

/-- The memory in which a thread first runs, in a history that is newest first. -/
def firstRun (tid : Int) (events : List Event) : Option Memory :=
  events.reverse.findSome? (·.ran tid)

theorem firstRun_append (tid : Int) (later earlier : List Event) :
    firstRun tid (later ++ earlier) = (firstRun tid earlier).or (firstRun tid later) := by
  simp [firstRun, List.findSome?_append]

theorem ran_of_firstRun {tid : Int} {events : List Event} {memory : Memory}
    (first : firstRun tid events = some memory) :
    ∃ event ∈ events, event.ran tid = some memory := by
  obtain ⟨event, member, ran⟩ := List.exists_of_findSome?_eq_some first
  exact ⟨event, List.mem_reverse.mp member, ran⟩

theorem firstRun_isSome {tid : Int} {events : List Event} (event : Event)
    (member : event ∈ events) (ran : (event.ran tid).isSome) : (firstRun tid events).isSome := by
  rw [firstRun, List.findSome?_isSome_iff]
  exact ⟨event, List.mem_reverse.mpr member, ran⟩

/-- The four ways to resume. -/
inductive ResumeCommand where
  | step (tid : Int)
  | stepUntil (fuel : Nat) (tid : Int) (addr : Nat) (maxSteps : Int)
  | cont
  | finish (fuel : Nat) (tid : Int)

/-- The world after the command, or after as many iterations as its fuel allows. -/
def ResumeCommand.world (k : Kernel K) (s : Session K) : ResumeCommand → World K
  | .step tid => (singlestep k s.g s.w tid).2.2
  | .stepUntil fuel tid addr maxSteps => (Cffi.stepUntil k fuel s.g s.w tid addr maxSteps).2.2
  | .cont => (contAllAndSetBps k s.g s.w).2.2
  | .finish fuel tid => (steppingFinish k fuel s.g s.w tid).2.2

/-- The first instruction the thread executes under the command is the program's own:
the bytes at its instruction pointer are, as far as the instruction extends. -/
def Transparent (k : Kernel K) (own : Memory) (s : Session K) (command : ResumeCommand)
    (t : Thread) (extent : Nat) : Prop :=
  ∀ events memory, (command.world k s).log = events ++ s.w.log →
    firstRun t.tid events = some memory →
    ∀ x, s.g.ip t ≤ x → x < s.g.ip t + extent → memory x = own x

/-- No byte of the instruction of the thread is a trap byte in memory. -/
def NoFreshTrap (s : Session K) (t : Thread) (extent : Nat) : Prop :=
  ∀ x, s.g.ip t ≤ x → x < s.g.ip t + extent → x ∈ s.planted → x ∉ s.g.enabledAddrs

/-- No breakpoint that is switched on lies on a byte of the instruction of the thread. -/
def NoBreakpointInside (s : Session K) (t : Thread) (extent : Nat) : Prop :=
  ∀ x, s.g.ip t ≤ x → x < s.g.ip t + extent → x ∉ s.g.enabledAddrs

/-- The traps in the way of the thread that the command does not take care of. -/
def Undisturbed (s : Session K) (t : Thread) (extent : Nat) : ResumeCommand → Prop
  | .step tid | .stepUntil _ tid _ _ => t.tid = tid → NoFreshTrap s t extent
  | .cont =>
      if hitsBreakpoint s.g.bHead (s.g.ip t) then NoFreshTrap s t extent
      else NoBreakpointInside s t extent
  | .finish _ tid =>
      if hitsBreakpoint s.g.bHead (s.g.ip t) then NoFreshTrap s t extent
      else t.tid = tid → NoBreakpointInside s t extent

/-! ### What the requests of a function let run -/

/-- Between two worlds only the threads of a set ran, each time in the memory of the
first world as far as the text is concerned. -/
structure Quiet (text : Set Nat) (tids : Set Int) (before after : World K) (events : List Event) :
    Prop where
  memory : ∀ x ∈ text, after.mem x = before.mem x
  log : after.log = events ++ before.log
  ran : ∀ event ∈ events, ∀ tid memory, event.ran tid = some memory →
    tid ∈ tids ∧ ∀ x ∈ text, memory x = before.mem x

/-- The threads a request may let run. -/
def Request.Runs (tids : Set Int) : Request → Prop
  | .singlestep tid _ | .cont _ tid _ => tid ∈ tids
  | _ => True

theorem Request.Flushing.runs {tids : Set Int} {request : Request} (ok : request.Flushing) :
    request.Runs tids := by
  cases request <;> trivial

theorem Request.Stepping.runs {site : WaitSite} {tid : Int} {request : Request}
    (ok : request.Stepping site tid) : request.Runs {tid} := by
  cases request with
  | singlestep stepped signal => exact ok.1
  | cont => exact ok.elim
  | _ => trivial

theorem Request.Resuming.runs {threads : List Thread} {request : Request}
    (ok : request.Resuming threads) : request.Runs {tid | ∃ t ∈ threads, t.tid = tid} := by
  cases request with
  | cont syscalls tid signal =>
      obtain ⟨t, member, same, -⟩ := ok
      exact ⟨t, member, same⟩
  | singlestep => exact ok.elim
  | _ => trivial

theorem Request.SteppingOver.runs {g : GlobalState} {threads : List Thread} {request : Request}
    (ok : request.SteppingOver g threads) :
    request.Runs {tid | ∃ t ∈ threads, t.tid = tid ∧ hitsBreakpoint g.bHead (g.ip t)} := by
  cases request with
  | singlestep tid signal => exact ok.2
  | cont => exact ok.elim
  | _ => trivial

theorem Request.quiet (keeps : k.KeepsText text) {tids : Set Int} {request : Request}
    (runs : request.Runs tids) (g : GlobalState) (w : World K) :
    ∃ events, Quiet text tids w (request.perform k (g, w)).2 events := by
  have unlogged : ∀ {after : World K}, after.log = w.log → (∀ x ∈ text, after.mem x = w.mem x) →
      ∃ events, Quiet text tids w after events :=
    fun same kept => ⟨[], kept, same, by simp⟩
  cases request with
  | getregs | tgkill => exact unlogged rfl fun _ _ => rfl
  | setregs tid regs =>
      refine unlogged ?_ ?_ <;> simp only [perform, World.setregs] <;> split <;> simp
  | singlestep tid signal =>
      simp only [perform, World.singlestep]
      split
      · exact unlogged rfl fun _ _ => rfl
      · rename_i done
        refine ⟨[.stepped tid signal w.mem], keeps.singlestep done, rfl, ?_⟩
        simp only [List.mem_singleton, forall_eq, Event.ran]
        rintro ran memory same
        split at same <;> cases same
        rename_i eq
        exact ⟨eq ▸ runs, fun _ _ => rfl⟩
  | cont syscalls tid signal =>
      simp only [perform, World.cont]
      split
      · exact unlogged rfl fun _ _ => rfl
      · rename_i done
        refine ⟨[.resumed tid signal w.mem], keeps.cont done, rfl, ?_⟩
        simp only [List.mem_singleton, forall_eq, Event.ran]
        rintro ran memory same
        split at same <;> cases same
        rename_i eq
        exact ⟨eq ▸ runs, fun _ _ => rfl⟩
  | waitpid site target nohang =>
      have kept := keeps.waitpid w.mem w.os target nohang
      simp only [perform, World.waitpid]
      split <;> rename_i reported <;> rw [reported] at kept
      · exact unlogged rfl kept
      · exact ⟨[_], kept, rfl, by simp [Event.ran]⟩

theorem Quiet.trans {tids : Set Int} {before middle after : World K} {first second : List Event}
    (earlier : Quiet text tids before middle first) (later : Quiet text tids middle after second) :
    Quiet text tids before after (second ++ first) where
  memory x inText := (later.memory x inText).trans (earlier.memory x inText)
  log := by rw [later.log, earlier.log, List.append_assoc]
  ran event member tid memory ran := by
    rcases List.mem_append.mp member with new | old
    · obtain ⟨inside, agrees⟩ := later.ran event new tid memory ran
      exact ⟨inside, fun x inText => (agrees x inText).trans (earlier.memory x inText)⟩
    · exact earlier.ran event old tid memory ran

theorem Quiet.mono {tids more : Set Int} {before after : World K} {events : List Event}
    (quiet : Quiet text tids before after events) (wider : tids ⊆ more) :
    Quiet text more before after events :=
  ⟨quiet.memory, quiet.log, fun event member tid memory ran =>
    (quiet.ran event member tid memory ran).imp_left fun inside => wider inside⟩

theorem Performs.quiet (keeps : k.KeepsText text) {tids : Set Int} {allowed : Request → Prop}
    (runs : ∀ request, allowed request → request.Runs tids) {s t : GlobalState × World K}
    (performed : Performs k allowed s t) : ∃ events, Quiet text tids s.2 t.2 events := by
  induction performed with
  | refl s => exact ⟨[], fun _ _ => rfl, rfl, by simp⟩
  | @head s t request ok rest ih =>
      obtain ⟨first, here⟩ := Request.quiet keeps (runs request ok) s.1 s.2
      obtain ⟨second, later⟩ := ih
      exact ⟨_, here.trans later⟩

/-! ### The first run of a thread -/

theorem singlestep_log {w next : World K} {tid : Int} {signal : Nat}
    (stepped : w.singlestep k tid signal = (true, next)) :
    next.log = .stepped tid signal w.mem :: w.log := by
  unfold World.singlestep at stepped
  split at stepped <;> cases stepped
  rfl

/-- One round of the step-over loop on a thread that has hit an entry. -/
theorem stepOver_cons {g : GlobalState} {t : Thread} {rest : List Thread} {status status' : Nat}
    {w next : World K} (hit : hitsBreakpoint g.bHead (g.ip t))
    (done : stepOver k g (t :: rest) status w = (some status', next)) :
    ∃ status₁ w₁, .stepped t.tid 0 w.mem :: w.log <:+ w₁.log ∧
      stepOver k g rest status₁ w₁ = (some status', next) := by
  simp only [stepOver, hit, if_true] at done
  split at done
  · cases done
  · rename_i w₁ stepped
    rcases waited : waitStatus k .prepareForRun t.tid status w₁ with ⟨status₁, w₂⟩
    have firstWait : Performs k (fun _ => True) (g, w₁) (g, w₂) :=
      waitStatus_performs waited trivial
    have grown : .stepped t.tid 0 w.mem :: w.log <:+ w₂.log := by
      rw [← singlestep_log stepped]
      exact firstWait.log
    simp only [waited] at done
    split at done
    · rcases second : w₂.singlestep k t.tid 0 with ⟨stepped, w₃⟩
      rcases waitedAgain : waitStatus k .prepareForRun t.tid status₁ w₃ with ⟨status₂, w₄⟩
      simp only [second, waitedAgain] at done
      have again : Performs k (fun _ => True) (g, w₂) (g, w₄) :=
        (singlestep_performs second trivial).trans (waitStatus_performs waitedAgain trivial)
      exact ⟨status₂, w₄, grown.trans again.log, done⟩
    · exact ⟨status₁, w₂, grown, done⟩

/-- A thread that has hit an entry of the table is stepped over. -/
theorem stepOver_ran {g : GlobalState} {threads : List Thread} {status status' : Nat}
    {w next : World K} (done : stepOver k g threads status w = (some status', next))
    {t : Thread} (member : t ∈ threads) (hit : hitsBreakpoint g.bHead (g.ip t)) :
    ∃ memory earlier, .stepped t.tid 0 memory :: (earlier ++ w.log) <:+ next.log := by
  induction threads generalizing status w with
  | nil => simp at member
  | cons head rest ih =>
      rcases List.mem_cons.mp member with rfl | inRest
      · obtain ⟨status₁, w₁, grown, rested⟩ := stepOver_cons hit done
        have later := (stepOver_performs (k := k) g rest status₁ w₁).log
        rw [rested] at later
        exact ⟨w.mem, [], grown.trans later⟩
      · by_cases hitHead : hitsBreakpoint g.bHead (g.ip head)
        · obtain ⟨status₁, w₁, grown, rested⟩ := stepOver_cons hitHead done
          obtain ⟨memory, earlier, log⟩ := ih rested inRest
          obtain ⟨before, extended⟩ := (List.suffix_cons _ _).trans grown
          exact ⟨memory, earlier ++ before, by rwa [List.append_assoc, extended]⟩
        · simp only [stepOver, hitHead] at done
          exact ih done inRest

section Resume

variable {s : Session K} {t : Thread} {extent : Nat}

/-- In memory as it is at the start, an instruction without a fresh trap is the
program's own. -/
theorem own_of_quiet {tids : Set Int} {after : World K} {events : List Event} {memory : Memory}
    (clean : s.Clean own text) (inText : ∀ x, s.g.ip t ≤ x → x < s.g.ip t + extent → x ∈ text)
    (quiet : Quiet text tids s.w after events) (fresh : NoFreshTrap s t extent)
    (first : firstRun t.tid events = some memory) :
    ∀ x, s.g.ip t ≤ x → x < s.g.ip t + extent → memory x = own x := by
  intro x above below
  obtain ⟨event, member, ran⟩ := ran_of_firstRun first
  rw [(quiet.ran event member t.tid memory ran).2 x (inText x above below)]
  exact (clean.bytes x (inText x above below)).resolve_right fun ⟨trap, on⟩ =>
    fresh x above below trap on

/-- What follows `prepare_for_run` runs a thread that was not stepped over in armed
memory, and every other one for the second time. -/
theorem own_after_prepareForRun (keeps : k.KeepsText text) (clean : s.Clean own text)
    (distinct : (s.g.tHead.map (·.tid)).Nodup) (member : t ∈ s.g.tHead)
    (inText : ∀ x, s.g.ip t ≤ x → x < s.g.ip t + extent → x ∈ text)
    {tids : Set Int} {after : World K} {events : List Event}
    (resumed : Quiet text tids (prepareForRun k s.g s.w).2 after events)
    (undisturbed : if hitsBreakpoint s.g.bHead (s.g.ip t) then NoFreshTrap s t extent
      else t.tid ∈ tids → NoBreakpointInside s t extent)
    {all : List Event} {memory : Memory} (log : after.log = all ++ s.w.log)
    (first : firstRun t.tid all = some memory) :
    ∀ x, s.g.ip t ≤ x → x < s.g.ip t + extent → memory x = own x := by
  obtain ⟨w, performed, prepared⟩ := prepareForRun_spec (k := k) s.g s.w
  obtain ⟨overEvents, quiet⟩ := performed.quiet keeps fun request ok =>
    ok.elim Request.Flushing.runs Request.SteppingOver.runs
  have sameLog : (prepareForRun k s.g s.w).2.log = w.log := by
    rcases prepared with gaveUp | ⟨status, -, done⟩
    · rw [gaveUp]
    · rw [done, armBreakpoints_eq]
  have split : all = events ++ overEvents := by
    rw [resumed.log, sameLog, quiet.log, ← List.append_assoc] at log
    exact (List.append_cancel_right log).symm
  rw [split, firstRun_append] at first
  by_cases hit : hitsBreakpoint s.g.bHead (s.g.ip t)
  · rw [if_pos hit] at undisturbed
    rcases prepared with gaveUp | ⟨status, steppedOver, -⟩
    · -- unarmed, everything runs in memory as it was
      rw [gaveUp] at resumed
      rw [← firstRun_append] at first
      exact own_of_quiet clean inText
        ((quiet.mono (Set.subset_univ _)).trans (resumed.mono (Set.subset_univ _)))
          undisturbed first
    · obtain ⟨before, earlier, ran⟩ := stepOver_ran steppedOver member hit
      obtain ⟨flushed, grown⟩ := (flushRegs_performs (k := k) s.g s.w).log
      obtain ⟨later, history⟩ := ran
      have overSplit : overEvents = later ++ .stepped t.tid 0 before :: (earlier ++ flushed) := by
        simp only at grown
        rw [quiet.log, ← grown] at history
        exact (List.append_left_inj s.w.log).mp (by simpa using history.symm)
      have someFirst : (firstRun t.tid overEvents).isSome :=
        firstRun_isSome (.stepped t.tid 0 before) (by simp [overSplit])
          (by simp [Event.ran])
      obtain ⟨memory', firstOver⟩ := Option.isSome_iff_exists.mp someFirst
      rw [firstOver, Option.some_or] at first
      cases first
      exact own_of_quiet clean inText quiet undisturbed firstOver
  · rw [if_neg hit] at undisturbed
    -- another thread has another thread id, so this one was not stepped over
    have notOver : firstRun t.tid overEvents = none := by
      rcases ran : firstRun t.tid overEvents with _ | memory
      · rfl
      · obtain ⟨event, inOver, ran⟩ := ran_of_firstRun ran
        obtain ⟨other, registered, same, otherHit⟩ := (quiet.ran event inOver t.tid memory ran).1
        rw [List.inj_on_of_nodup_map distinct registered member same] at otherHit
        exact absurd otherHit hit
    rw [notOver, Option.none_or] at first
    intro x above below
    obtain ⟨event, inEvents, ran⟩ := ran_of_firstRun first
    obtain ⟨resumes, agrees⟩ := resumed.ran event inEvents t.tid memory ran
    rw [agrees x (inText x above below)]
    exact ((clean.prepare keeps).bytes x (inText x above below)).resolve_right fun ⟨_, on⟩ =>
      undisturbed resumes x above below on

/-- A command that steps one thread without preparing for it. -/
theorem own_of_stepping (clean : s.Clean own text)
    (inText : ∀ x, s.g.ip t ≤ x → x < s.g.ip t + extent → x ∈ text) {tid : Int} {after : World K}
    (stepped : ∃ events, Quiet text {tid} s.w after events)
    (undisturbed : t.tid = tid → NoFreshTrap s t extent) {all : List Event} {memory : Memory}
    (log : after.log = all ++ s.w.log) (first : firstRun t.tid all = some memory) :
    ∀ x, s.g.ip t ≤ x → x < s.g.ip t + extent → memory x = own x := by
  obtain ⟨events, quiet⟩ := stepped
  rw [quiet.log] at log
  cases List.append_cancel_right log
  obtain ⟨event, inEvents, ran⟩ := ran_of_firstRun first
  have same : t.tid = tid := (quiet.ran event inEvents t.tid memory ran).1
  exact own_of_quiet clean inText quiet (undisturbed same) first

end Resume

/-- A world of `nop`s in which thread 1 is stopped at `0x1000`. -/
def stoppedAt0x1000 : World Script :=
  .nops { registers := fun tid => if tid = 1 then some (fun _ => 0x1000) else none }

end Libdebug.Cffi
