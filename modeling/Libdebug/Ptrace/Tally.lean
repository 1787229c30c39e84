import Libdebug.Ptrace.SyscallToggles
import Libdebug.Ptrace.ThreadRegistries

/-!
What the statuses of a batch come to, apart from how they are handled: a tally, and the
contributions that are added to it.

A status asks for a stop, takes a flag of the resume context, counts a hit, toggles the handler
of a system call, or puts the instruction pointers of a thread where they belong. Nothing is ever
taken back, so all of these commute but two that place the same thread differently.
-/

namespace Libdebug.Ptrace

open Libdebug.Foundation Libdebug.Cffi

/-! ### Contributions -/

structure Tally where
  resume : Bool
  forceInterrupt : Bool
  isAStep : Bool
  hits : Ref → Nat
  handlers : Nat → Option SyscallHandler
  catchers : Nat → Option SignalCatcher
  /-- the instruction pointers of the contexts with an id -/
  ips : Int → List Nat

inductive Contribution where
  /-- the process stops, whatever else there is -/
  | stop
  /-- a `SIGSTOP`, which may be the one that an interrupt has sent -/
  | interrupt
  /-- a `SIGTRAP`, which may be the end of a step -/
  | endStep
  /-- the hit of a breakpoint without a callback -/
  | hit (bp : Ref)
  | syscall (number : Nat)
  | signal (number : Nat)
  | place (threadId : Int) (ips : List Nat)
  deriving DecidableEq

/-- A contribution that says something of the decision or of hits -/
def Contribution.counts : Contribution → Bool
  | .place _ _ => false
  | _ => true

/-- The catcher after a signal -/
def SignalCatcher.counted (catcher : SignalCatcher) : SignalCatcher :=
  if catcher.enabled then { catcher with hitCount := catcher.hitCount + 1 } else catcher

namespace Tally

def stopIf (tally : Tally) (decides : Bool) : Tally :=
  { tally with resume := tally.resume && !decides }

def add (tally : Tally) : Contribution → Tally
  | .stop => tally.stopIf true
  | .interrupt => { tally.stopIf tally.forceInterrupt with forceInterrupt := false }
  | .endStep => { tally.stopIf tally.isAStep with isAStep := false }
  | .hit bp =>
      { tally.stopIf true with hits := Function.update tally.hits bp (tally.hits bp + 1) }
  | .syscall number =>
      { tally.stopIf ((tally.handlers number).any (·.enabled)) with
        handlers := Function.update tally.handlers number
          ((tally.handlers number).map SyscallHandler.after) }
  | .signal number =>
      { tally.stopIf ((tally.catchers number).any (·.enabled)) with
        catchers := Function.update tally.catchers number
          ((tally.catchers number).map SignalCatcher.counted) }
  | .place threadId ips => { tally with ips := Function.update tally.ips threadId ips }

def addAll (tally : Tally) (contributions : List Contribution) : Tally :=
  contributions.foldl add tally

variable {tally : Tally} {contributions : List Contribution} {c : Contribution}

@[simp] theorem addAll_nil : tally.addAll [] = tally := rfl

@[simp] theorem addAll_cons : tally.addAll (c :: contributions) =
    (tally.add c).addAll contributions := rfl

theorem addAll_append (first second : List Contribution) :
    tally.addAll (first ++ second) = (tally.addAll first).addAll second := List.foldl_append

theorem addAll_mono (first second : List Contribution)
    (stopped : (tally.addAll first).resume = false) :
    (tally.addAll (first ++ second)).resume = false := by
  rw [addAll_append]
  generalize tally.addAll first = after at stopped
  induction second generalizing after with
  | nil => exact stopped
  | cons c rest ih =>
      apply ih
      cases c <;> simp [add, stopIf, stopped]

/-- The tally but for where threads are -/
def withIps (tally : Tally) (ips : Int → List Nat) : Tally := { tally with ips }

theorem add_withIps {ips : Int → List Nat} (counts : c.counts = true) :
    (tally.withIps ips).add c = (tally.add c).withIps ips := by
  cases c with
  | place => cases counts
  | _ => rfl

variable (tally contributions) in
/-- The decision and the counts go by the contributions that say something of them. -/
theorem addAll_counts (ips : Int → List Nat) : ∃ after, (tally.withIps ips).addAll contributions =
    (tally.addAll (contributions.filter (·.counts))).withIps after := by
  induction contributions generalizing tally ips with
  | nil => exact ⟨ips, rfl⟩
  | cons c rest ih =>
      cases counts : c.counts with
      | true =>
          obtain ⟨after, same⟩ := ih (tally.add c) ips
          refine ⟨after, ?_⟩
          rw [addAll_cons, add_withIps counts, List.filter_cons_of_pos counts]
          exact same
      | false =>
          obtain ⟨threadId, placed, rfl⟩ : ∃ threadId placed, c = .place threadId placed := by
            cases c <;> first | exact ⟨_, _, rfl⟩ | cases counts
          exact ih tally (Function.update ips threadId placed)

theorem resume_counts : (tally.addAll contributions).resume =
    (tally.addAll (contributions.filter (·.counts))).resume := by
  obtain ⟨after, same⟩ := addAll_counts tally contributions tally.ips
  change ((tally.withIps tally.ips).addAll contributions).resume = _
  rw [same]
  rfl

theorem add_syscall_absent {number : Nat} (absent : tally.handlers number = none) :
    tally.add (.syscall number) = tally := by
  simp only [add, stopIf, absent, Option.any_none, Bool.not_false, Bool.and_true, Option.map_none]
  rw [← absent, Function.update_eq_self]

theorem add_signal_unheard {number : Nat}
    (unheard : ∀ catcher, tally.catchers number = some catcher → catcher.enabled = false) :
    tally.add (.signal number) = tally := by
  rcases there : tally.catchers number with _ | catcher
  · simp only [add, stopIf, there, Option.any_none, Bool.not_false, Bool.and_true,
      Option.map_none]
    rw [← there, Function.update_eq_self]
  · have off : catcher.enabled = false := unheard catcher there
    have uncounted : catcher.counted = catcher := by
      rw [SignalCatcher.counted, if_neg (by simp [off])]
    simp only [add, stopIf, there, Option.any_some, off, Bool.not_false, Bool.and_true,
      Option.map_some, uncounted]
    rw [← there, Function.update_eq_self]

end Tally

variable {c d : Contribution}

/-- The two do not place one thread differently. -/
def Contribution.Compatible : Contribution → Contribution → Prop
  | .place threadId ips, .place otherId others => threadId = otherId → ips = others
  | _, _ => True

/-- **Contributions commute.** -/
theorem Tally.add_right_comm (tally : Tally) (compatible : c.Compatible d) :
    (tally.add c).add d = (tally.add d).add c := by
  by_cases same : c = d
  · rw [same]
  cases c <;> cases d
  case hit.hit bp other =>
      have different : bp ≠ other := fun equal => same (congrArg Contribution.hit equal)
      simp only [add, stopIf, Function.update_of_ne different, Function.update_of_ne different.symm,
        Function.update_comm different]
  case syscall.syscall number other =>
      have different : number ≠ other := fun equal => same (congrArg Contribution.syscall equal)
      simp only [add, stopIf, Function.update_of_ne different, Function.update_of_ne different.symm,
        Function.update_comm different, Bool.and_right_comm]
  case signal.signal number other =>
      have different : number ≠ other := fun equal => same (congrArg Contribution.signal equal)
      simp only [add, stopIf, Function.update_of_ne different, Function.update_of_ne different.symm,
        Function.update_comm different, Bool.and_right_comm]
  case place.place threadId ips otherId others =>
      have different : threadId ≠ otherId := by
        rintro rfl
        exact same (congrArg _ (compatible rfl))
      simp only [add, Function.update_comm different]
  all_goals simp only [add, stopIf, Bool.and_right_comm]

/-! ### The tally of a state -/

section States

variable {K : Type} (k : Kernel K) (s : Debugger K)

namespace Debugger

/-- The instruction pointers of the contexts with the id, those of dead threads among them -/
def ips (tid : Int) : List Nat :=
  (s.identities.filter (·.1 = tid)).map fun context =>
    instructionPointer (s.globalState.files context.2.2)

def tally : Tally where
  resume := s.resumeContext.resume
  forceInterrupt := s.resumeContext.forceInterrupt
  isAStep := s.resumeContext.isAStep
  hits bp := (s.objects bp).hitCount
  handlers := s.handledSyscalls.get?
  catchers := s.caughtSignals.get?
  ips := s.ips

/-! ### What a status contributes -/

/-- The breakpoint that a `SIGTRAP` at `ip` is put down to, watchpoints apart -/
def trapBreakpoint (ip : Nat) : Option Ref :=
  (s.activeBreakpoint ip).or ((beforeTrap ip).bind s.activeBreakpoint)

/-- The watchpoint in the debug register that the status register names -/
def hitWatchpoint (tid : Int) : Option Ref :=
  ((s.hardwareBpHelpers.get? tid).bind fun helper =>
    (hitDebugReg ((k.peekuser s.world.os tid dr6Offset).getD 0)).bind
      helper.breakpointRegisters).filter fun bp => (s.objects bp).condition ≠ some "x"

/-- The instruction pointer of the thread is set back before the trap instruction. -/
def setBack (file : Ptr) (ip : Nat) : Debugger K :=
  s.writeReg file .rip (ip - softwareBreakpointByteSize)

def trapContributions (tid : Int) : List Contribution :=
  match s.liveFile tid with
  | none => [.stop]
  | some file =>
      let ip := s.globalState.files file .rip
      match s.activeBreakpoint ip, (beforeTrap ip).bind s.activeBreakpoint with
      | some bp, _ => [.hit bp]
      | none, some bp => [.place tid ((s.setBack file ip).ips tid), .hit bp]
      | none, none => (s.hitWatchpoint k tid).toList.map .hit

/-- The id that a clone event announces -/
def newThread (st : ThreadStatus) : Int := k.geteventmsg s.world.os st.tid

/-- The world in which the new thread has stopped, unless waiting for it fails -/
def awaited (results : List ThreadStatus) (tid : Int) : Option (World K) :=
  if results.any fun st => st.tid = tid && st.status = 4991 then some s.world
  else
    match s.world.waitpid k .handleClone (.thread tid) false with
    | (some _, world) => some world
    | (none, _) => none

/-- The instruction pointer that a new thread is registered with -/
def firstIp (results : List ThreadStatus) (tid : Int) : Nat :=
  match s.awaited k results tid with
  | none => 0
  | some world =>
      let (file, globalState) := registerThread k s.globalState world tid
      instructionPointer (globalState.files file)

end Debugger

def announcesClone (st : ThreadStatus) : Bool := st.status / 256 = StopEvent.clone.value

namespace Debugger

def cloneContributions (results : List ThreadStatus) (st : ThreadStatus) : List Contribution :=
  if announcesClone st then
    let tid := s.newThread k st
    [.place tid (s.ips tid ++ [s.firstIp k results tid])]
  else []

/-- What `_internal_signal_handler` comes to -/
def stopContributions (results : List ThreadStatus) (st : ThreadStatus) : List Contribution :=
  if wstopsig st.status = syscallSigtrap then
    (s.liveFile st.tid).toList.map fun file => .syscall (s.globalState.files file .origRax)
  else if wstopsig st.status = SIGSTOP then [.interrupt]
  else if wstopsig st.status = SIGTRAP then
    s.trapContributions k st.tid ++ .endStep :: s.cloneContributions k results st
  else []

/-- What the catchers come to; none catches a `SIGSTOP` -/
def signalContributions (st : ThreadStatus) : List Contribution :=
  if wstopsig st.status ≠ SIGSTOP ∧ (s.liveFile st.tid).isSome then [.signal (wstopsig st.status)]
  else []

def contributions (results : List ThreadStatus) (st : ThreadStatus) : List Contribution :=
  if wifstopped st.status && !s.resumeContext.isStartup then
    s.stopContributions k results st ++ s.signalContributions st
  else []

/-- The threads of which a status reads or changes what belongs to them alone -/
def concerns (st : ThreadStatus) : List Int :=
  if wifstopped st.status && wstopsig st.status = SIGSTOP then []
  else if wifstopped st.status && announcesClone st then [st.tid, s.newThread k st]
  else [st.tid]

/-- The hardware breakpoints, whether enabled or not -/
def hardwareBreakpoints : List Ref := s.breakpoints.values.filter fun bp => (s.objects bp).hardware

/-- They can be installed in the debug registers of a new thread. -/
structure HardwareFits : Prop where
  count : s.hardwareBreakpoints.length ≤ dbregsCount
  settings : ∀ bp ∈ s.hardwareBreakpoints,
    (ctrlCondVal (s.objects bp).condition).isSome ∧ (ctrlLenVal (s.objects bp).length).isSome

/-- Nothing is raised while the status is handled: the manager of a known thread is there when
its debug registers are asked for or it exits, and the hardware breakpoints fit those of a new
thread. -/
structure Manageable (st : ThreadStatus) : Prop where
  trap : wifstopped st.status = true → s.resumeContext.isStartup = false →
    wstopsig st.status = SIGTRAP → ∀ file, s.liveFile st.tid = some file →
      s.trapBreakpoint (s.globalState.files file .rip) = none →
      (s.hardwareBpHelpers.get? st.tid).isSome
  clone : wifstopped st.status = true → s.resumeContext.isStartup = false →
    announcesClone st = true → s.HardwareFits
  exit : wifexited st.status = true ∨ wifsignaled st.status = true →
    (s.liveFile st.tid).isSome → (s.hardwareBpHelpers.get? st.tid).isSome

end Debugger

end States

end Libdebug.Ptrace
