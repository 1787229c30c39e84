import Libdebug.Cffi.Armed
import Libdebug.Cffi.Nodes
import Libdebug.Ptrace.TracedThreads

/-!
The Python layer stands on the C layer. Whatever the commands of a session do, and the functions
of the user that they call, comes down to calls of the C library and to a few demands on the
kernel that the library has no part in: the debug registers are written, a new thread is waited
for. So a session of the debugger is one of the library, and what holds of the lists of the library
in all of its sessions holds in those of the debugger.
-/

namespace Libdebug.Ptrace

open Libdebug.Foundation Libdebug.Cffi

variable {K α : Type} (k : Kernel K) {u : UserCode K}

/-! ### The library and the demands on it -/

inductive Demand where
  /-- a call of the library -/
  | lib (call : Call)
  /-- `ptrace_pokeuser` -/
  | pokeUser (threadId : Int) (address value : Nat)
  /-- `os.waitpid(thread_id, 0)` -/
  | osWaitpid (threadId : Int)
  /-- `global_state.handle_syscall_enabled = enabled` -/
  | handleSyscallEnabled (enabled : Bool)
  /-- An entry in the history, which changes nothing -/
  | note (event : Event)

def Demand.serve (processId : Int) (s : Session K) : Demand → Option (Session K)
  | .lib call => s.call k processId call
  | .pokeUser threadId address value =>
      match k.pokeuser s.w.os threadId address value with
      | some os => some { s with w := { s.w with os } }
      | none => some s
  | .osWaitpid threadId =>
      some { s with w := (s.w.waitpid k .handleClone (.thread threadId) false).2 }
  | .handleSyscallEnabled enabled =>
      some { s with g := { s.g with handleSyscallEnabled := enabled } }
  | .note event => some { s with w := s.w.record event }

def library (processId : Int) : Machine (Session K) Demand :=
  ⟨fun s demand => demand.serve k processId s⟩

/-! ### What drives the library -/

/-- Some demands on the library lead from the one state to the other. -/
def Driven (s t : Debugger K) : Prop :=
  t.processId = s.processId ∧ ∀ planted, ∃ demands after,
    (library k s.processId).run ⟨s.globalState, s.world, planted⟩ demands =
      some ⟨t.globalState, t.world, after⟩

variable {k} {s t : Debugger K}

instance : IsPreorder (Debugger K) (Driven k) where
  refl s := ⟨rfl, fun planted => ⟨[], planted, rfl⟩⟩
  trans r s t := by
    rintro ⟨same, first⟩ ⟨also, second⟩
    refine ⟨also.trans same, fun planted => ?_⟩
    obtain ⟨earlier, middle, reached⟩ := first planted
    obtain ⟨later, after, ended⟩ := second middle
    refine ⟨earlier ++ later, after, ?_⟩
    rw [Machine.run_append, reached]
    exact same ▸ ended

/-- One demand -/
theorem driven_of_demand (demand : Demand) (same : t.processId = s.processId)
    (served : ∀ planted, ∃ after,
      demand.serve k s.processId ⟨s.globalState, s.world, planted⟩ =
        some ⟨t.globalState, t.world, after⟩) : Driven k s t := by
  refine ⟨same, fun planted => ?_⟩
  obtain ⟨after, serves⟩ := served planted
  refine ⟨[demand], after, ?_⟩
  rw [Machine.run_cons serves]
  rfl

/-- Nothing is demanded. -/
theorem driven_of_same (processId : t.processId = s.processId)
    (globalState : t.globalState = s.globalState) (world : t.world = s.world) : Driven k s t :=
  ⟨processId, fun planted => ⟨[], planted, by rw [globalState, world]; rfl⟩⟩

abbrev Drives (k : Kernel K) (p : Py K α) : Prop := Keeps (Driven k) p

/-- The program changes what belongs to the Python side only. -/
def Private (f : Debugger K → Debugger K) : Prop :=
  ∀ s, (f s).processId = s.processId ∧ (f s).globalState = s.globalState ∧ (f s).world = s.world

namespace Drives

theorem privately {f : Debugger K → Debugger K} (own : Private f) :
    Drives k (modify f : Py K Unit) :=
  Keeps.modify fun s => driven_of_same (own s).1 (own s).2.1 (own s).2.2

theorem callLib {f : GlobalState → World K → α × GlobalState × World K} (call : Call)
    (calls : ∀ processId planted g w, ∃ after,
      (⟨g, w, planted⟩ : Session K).call k processId call =
        some ⟨(f g w).2.1, (f g w).2.2, after⟩) :
    Drives k (callLib f) := fun s =>
  driven_of_demand (.lib call) rfl fun planted =>
    calls s.processId planted s.globalState s.world

theorem raiseErrnoIf (failed : Prop) [Decidable failed] : Drives k (raiseErrnoIf k failed) :=
  Keeps.get.bind fun _ => Keeps.ite (fun _ => Keeps.throw _) fun _ => Keeps.pure _

/-! ### Breakpoints -/

theorem pokeUser (threadId : Int) (address value : Nat) :
    Drives k (pokeUser k threadId address value) := by
  refine Keeps.modify fun s => ?_
  rcases poked : k.pokeuser s.world.os threadId address value with _ | os
  · exact refl_of (Driven k) s
  · refine driven_of_demand (.pokeUser threadId address value) rfl fun planted => ⟨planted, ?_⟩
    simp [Demand.serve, poked]

theorem installBreakpoint (threadId : Int) (bp : Ref) :
    Drives k (installBreakpoint k threadId bp) := by
  refine (getHelper_keeps _).bind fun helper => Keeps.get.bind fun s =>
    Keeps.ite (fun _ => Keeps.throw _) fun _ => ?_
  split
  · exact Keeps.throw _
  · refine (pokeUser _ _ _).bind fun _ => ?_
    split
    · exact (peekUser_keeps _ _).bind fun _ => (pokeUser _ _ _).bind fun _ =>
        privately fun _ => ⟨rfl, rfl, rfl⟩
    · exact Keeps.throw _

theorem removeBreakpoint (threadId : Int) (bp : Ref) :
    Drives k (removeBreakpoint k threadId bp) := by
  refine (getHelper_keeps _).bind fun helper => Keeps.get.bind fun s =>
    Keeps.ite (fun _ => Keeps.throw _) fun _ => ?_
  split
  · exact Keeps.throw _
  · exact (pokeUser _ _ _).bind fun _ => (peekUser_keeps _ _).bind fun _ =>
      (pokeUser _ _ _).bind fun _ => privately fun _ => ⟨rfl, rfl, rfl⟩

theorem enableBreakpoint (bp : Ref) : Drives k (enableBreakpoint bp : Py K Unit) := by
  refine Keeps.get.bind fun s => Keeps.get_bind fun t => ?_
  split
  · rename_i g w switched
    have called :
        Cffi.enableBreakpoint t.globalState t.world (s.objects bp).address = some (g, w) := switched
    refine driven_of_demand (.lib (.enableBreakpoint (s.objects bp).address)) rfl fun planted => ?_
    simp only [Demand.serve, Session.call, called]
    exact ⟨_, rfl⟩
  · exact refl_of (Driven k) t

theorem disableBreakpoint (bp : Ref) : Drives k (disableBreakpoint bp : Py K Unit) := by
  refine Keeps.get.bind fun s => Keeps.get_bind fun t => ?_
  split
  · rename_i g w switched
    have called :
        Cffi.disableBreakpoint t.globalState t.world (s.objects bp).address = some (g, w) :=
      switched
    refine driven_of_demand (.lib (.disableBreakpoint (s.objects bp).address)) rfl fun planted => ?_
    simp only [Demand.serve, Session.call, called]
    exact ⟨_, rfl⟩
  · exact refl_of (Driven k) t

theorem setBreakpoint (bp : Ref) (insert : Bool) : Drives k (setBreakpoint k bp insert) := by
  refine Keeps.bind (Keeps.get.bind fun s => Keeps.ite (fun _ => ?_) fun _ =>
    Keeps.ite (fun _ => ?_) fun _ => enableBreakpoint bp) fun _ =>
    Keeps.ite (fun _ => ?_) fun _ => Keeps.pure _
  · exact Keeps.forM fun threadId _ => installBreakpoint threadId bp
  · exact Keeps.get.bind fun s =>
      callLib (.registerBreakpoint (s.objects bp).address) fun _ _ _ _ => ⟨_, rfl⟩
  · exact privately fun _ => ⟨rfl, rfl, rfl⟩

theorem unsetBreakpoint (bp : Ref) (delete : Bool) : Drives k (unsetBreakpoint k bp delete) := by
  refine Keeps.bind (Keeps.get.bind fun s => Keeps.ite (fun _ => ?_) fun _ =>
    Keeps.ite (fun _ => ?_) fun _ => disableBreakpoint bp) fun _ =>
    Keeps.ite (fun _ => ?_) fun _ => Keeps.pure _
  · exact Keeps.forM fun threadId _ => removeBreakpoint threadId bp
  · exact Keeps.get.bind fun s =>
      callLib (.unregisterBreakpoint (s.objects bp).address) fun _ _ _ _ => ⟨_, rfl⟩
  · exact Keeps.get.bind fun s => Keeps.ite (fun _ => privately fun _ => ⟨rfl, rfl, rfl⟩)
      fun _ => Keeps.throw _

theorem newBreakpoint (bp : Breakpoint) : Drives k (newBreakpoint bp : Py K Ref) := fun _ =>
  driven_of_same rfl rfl rfl

theorem breakpoint (address : Nat) (symbol : String) (hardware : Bool)
    (condition : Option String) (length : Nat) (callback : Option Callback) :
    Drives k (breakpoint k address symbol hardware condition length callback) :=
  ensureAlive_keeps.bind fun _ => (checkCondition_keeps _ _ _).bind fun _ =>
    (newBreakpoint _).bind fun bp => (setBreakpoint bp _).bind fun _ =>
      Keeps.get.bind fun _ => Keeps.ite (fun _ => Keeps.throw _) fun _ => Keeps.pure _

/-! ### Threads and resuming -/

theorem registerNewThread (threadId : Int) : Drives k (registerNewThread k threadId) :=
  Keeps.bind (callLib (.registerThread threadId) fun _ _ _ _ => ⟨_, rfl⟩) fun _ =>
    Keeps.bind (privately fun _ => ⟨rfl, rfl, rfl⟩) fun _ =>
      Keeps.get.bind fun _ => Keeps.forM fun bp _ => installBreakpoint threadId bp

theorem unregisterThread (threadId : Int) (exitCode exitSignal : Option Nat) :
    Drives k (unregisterThread threadId exitCode exitSignal : Py K Unit) := by
  refine Keeps.bind (callLib (.unregisterThread threadId) fun _ _ _ _ => ⟨_, rfl⟩) fun _ =>
    Keeps.bind (privately fun s => ?_) fun _ => Keeps.get.bind fun _ =>
      Keeps.ite (fun _ => privately fun _ => ⟨rfl, rfl, rfl⟩) fun _ => Keeps.throw _
  unfold Debugger.setThreadAsDead
  split <;> exact ⟨rfl, rfl, rfl⟩

theorem forwardSignals : Drives k (forwardSignals : Py K Unit) := by
  have forwards (node : Thread) : Drives k (forwardSignalTo node : Py K Unit) := by
    refine Keeps.get.bind fun s => Keeps.ite (fun _ => ?_) fun _ => Keeps.pure _
    split
    · exact Keeps.throw _
    · rename_i thread found
      refine Keeps.ite (fun _ => Keeps.modify fun t => ?_) fun _ => Keeps.pure _
      exact driven_of_demand (.lib (.forward node.regs (s.signalNumber thread))) rfl
        fun planted => ⟨planted, rfl⟩
  refine Keeps.get.bind fun _ => Keeps.ite (fun _ => ?_) fun _ => Keeps.pure _
  exact Keeps.get.bind fun _ => Keeps.bind (Keeps.forM fun node _ => forwards node)
    fun _ => privately fun _ => ⟨rfl, rfl, rfl⟩

theorem collectChanged (bps : List Ref) : Drives k (collectChanged bps : Py K (List Ref)) := by
  induction bps with
  | nil => exact Keeps.pure _
  | cons bp rest ih =>
      exact Keeps.get.bind fun _ => Keeps.bind (privately fun _ => ⟨rfl, rfl, rfl⟩) fun _ =>
        ih.bind fun _ => Keeps.pure _

theorem cont : Drives k (cont k) := by
  have applies (bp : Ref) : Drives k (applyChange k bp) :=
    Keeps.get.bind fun _ =>
      Keeps.ite (fun _ => setBreakpoint bp _) fun _ => unsetBreakpoint bp _
  have changes : Drives k (applyChanges k) :=
    Keeps.get.bind fun _ => (collectChanged _).bind fun _ => Keeps.forM fun bp _ => applies bp
  refine forwardSignals.bind fun _ => changes.bind fun _ =>
    Keeps.bind (privately fun _ => ⟨rfl, rfl, rfl⟩) fun _ => Keeps.bind (Keeps.modify fun s => ?_)
      fun _ => (callLib .contAllAndSetBps fun _ _ _ _ => ⟨_, rfl⟩).bind fun _ => raiseErrnoIf _
  exact driven_of_demand
    (.handleSyscallEnabled (Ptrace.handleSyscallEnabled s.handledSyscalls.values)) rfl
    fun planted => ⟨planted, rfl⟩

theorem disableForStep : Drives k (disableForStep : Py K Unit) :=
  Keeps.get.bind fun _ => Keeps.forM fun _ _ => privately fun _ => ⟨rfl, rfl, rfl⟩

theorem step (threadId : Int) : Drives k (step k threadId) :=
  disableForStep.bind fun _ => (callLib (.singlestep threadId) fun _ _ _ _ => ⟨_, rfl⟩).bind
    fun _ => (raiseErrnoIf _).bind fun _ => privately fun _ => ⟨rfl, rfl, rfl⟩

/-! ### The status handler -/

theorem writeReg (file : Ptr) (reg : Reg) (value : Nat) (s : Debugger K) :
    Driven k s (s.writeReg file reg value) :=
  driven_of_demand (.lib (.writeRegs file _)) rfl fun planted => ⟨planted, rfl⟩

theorem perform (action : Action) (s : Debugger K) : Driven k s (s.perform action) := by
  cases action with
  | setRegister file reg value => exact writeReg file reg value s
  | setSignal thread signal =>
      simp only [Debugger.perform, Debugger.setSignal]
      split
      · exact refl_of (Driven k) s
      · rename_i t _
        exact driven_of_demand (.note (.chose t.threadId signal)) rfl fun planted => ⟨planted, rfl⟩
  | pokeMemory address value =>
      exact driven_of_demand (.lib (.ptracePokedata address value)) rfl fun planted =>
        ⟨planted, rfl⟩
  | _ => exact driven_of_same rfl rfl rfl

theorem runCallback (site : CallSite) (callback : Callback) (threadId : Int) :
    Drives k (runCallback u site callback threadId) := fun s => by
  have performs (actions : List Action) (s : Debugger K) : Driven k s (s.performAll actions) := by
    induction actions generalizing s with
    | nil => exact refl_of (Driven k) s
    | cons action rest ih => exact trans_of (Driven k) (perform action s) (ih _)
  rw [stateAfter_runCallback]
  exact trans_of (Driven k) (driven_of_same rfl rfl rfl) (performs _ _)

theorem isWatchpointHit (threadId : Int) : Drives k (isWatchpointHit k threadId) := by
  refine (getHelper_keeps _).bind fun helper => (peekUser_keeps _ _).bind fun _ =>
    Keeps.get.bind fun s => ?_
  split <;> exact Keeps.pure _

theorem handleBreakpoints (threadId : Int) : Drives k (handleBreakpoints k u threadId) := by
  have credits (bp : Ref) : Drives k (creditHit u threadId bp) := by
    refine Keeps.bind (privately fun _ => ⟨rfl, rfl, rfl⟩) fun _ => Keeps.get.bind fun s => ?_
    split
    · exact runCallback _ _ _
    · exact privately fun _ => ⟨rfl, rfl, rfl⟩
  have finds (thread : ThreadContext) (ip : Nat) : Drives k (findHit k threadId thread ip) := by
    refine Keeps.get.bind fun s => ?_
    split
    · exact Keeps.pure _
    · split
      · refine Keeps.bind (Keeps.modify fun s => ?_) fun _ => Keeps.pure _
        exact trans_of (Driven k) (writeReg thread.registerFile .rip _ s)
          (driven_of_same rfl rfl rfl)
      · exact isWatchpointHit threadId
  refine Keeps.get.bind fun s => ?_
  split
  · exact privately fun _ => ⟨rfl, rfl, rfl⟩
  · refine (finds _ _).bind fun hit => ?_
    split
    · exact credits _
    · exact Keeps.pure _

theorem osWaitpid (threadId : Int) : Drives k (osWaitpid k threadId) :=
  Keeps.bind (fun _ => driven_of_demand (.osWaitpid threadId) rfl fun planted => ⟨planted, rfl⟩)
    fun _ => raiseErrnoIf _

theorem handleEvent (pid : Int) (event : Nat) (results : List ThreadStatus) :
    Drives k (handleEvent k pid event results) := by
  have forwards : Drives k (modify (·.setForwardSignal false) : Py K Unit) :=
    privately fun _ => ⟨rfl, rfl, rfl⟩
  refine Keeps.ite (fun _ => Keeps.get.bind fun s => Keeps.bind ?_ fun _ => forwards) fun _ =>
    Keeps.ite (fun _ => forwards) fun _ => Keeps.pure _
  exact Keeps.bind (Keeps.ite (fun _ => Keeps.pure _) fun _ => osWaitpid _)
    fun _ => registerNewThread _

theorem stops : Drives k (modify (·.setResume false) : Py K Unit) :=
  privately fun _ => ⟨rfl, rfl, rfl⟩

theorem internalSignalHandler (pid : Int) (signum : Nat) (results : List ThreadStatus)
    (status : Nat) : Drives k (internalSignalHandler k u pid signum results status) := by
  have syscalls : Drives k (handleSyscall u pid : Py K Unit) :=
    handleSyscall_keeps (fun _ _ => privately fun _ => ⟨rfl, rfl, rfl⟩) stops runCallback pid
  refine Keeps.get.bind fun s =>
    Keeps.ite (fun _ => syscalls.bind fun _ => privately fun _ => ⟨rfl, rfl, rfl⟩) fun _ =>
      Keeps.ite (fun _ => privately fun _ => ⟨rfl, rfl, rfl⟩) fun _ => Keeps.ite (fun _ => ?_)
        fun _ => Keeps.pure _
  refine (handleBreakpoints pid).bind fun _ => Keeps.bind (privately fun s => ?_) fun _ =>
    handleEvent _ _ _
  split <;> exact ⟨rfl, rfl, rfl⟩

theorem receive (st : ThreadStatus) (thread signum : Nat) (s : Debugger K) :
    Driven k s (s.receive st thread signum) := by
  by_cases delivered : st.cause = .delivery
  · refine driven_of_demand (.note (.chose st.tid signum)) rfl fun planted => ⟨planted, ?_⟩
    simp [Demand.serve, Debugger.receive, Debugger.updateThread, delivered]
  · refine driven_of_same rfl rfl ?_
    simp [Debugger.receive, delivered]

theorem handleStop (st : ThreadStatus) (signum : Nat) : Drives k (handleStop u st signum) := by
  refine Keeps.bind (Keeps.get.bind fun _ => Keeps.pure _) fun thread => ?_
  split
  · exact Keeps.pure _
  · refine Keeps.bind (Keeps.modify (receive st _ signum)) fun _ =>
      (handleSignal_keeps (fun _ _ => privately fun _ => ⟨rfl, rfl, rfl⟩) stops runCallback _
        _).bind fun _ => privately fun s => ?_
    split <;> exact ⟨rfl, rfl, rfl⟩

theorem handleChange (st : ThreadStatus) (results : List ThreadStatus) :
    Drives k (handleChange k u st results) := by
  have exits (exitCode exitSignal : Option Nat) :
      Drives k (handleExit st.tid exitCode exitSignal : Py K Unit) :=
    handleExit_keeps unregisterThread _ _ _
  exact Keeps.bind (privately fun _ => ⟨rfl, rfl, rfl⟩) fun _ => Keeps.get.bind fun s =>
    Keeps.ite (fun _ => Keeps.ite (fun _ => Keeps.pure _) fun _ =>
      (internalSignalHandler _ _ _ _).bind fun _ => handleStop _ _) fun _ =>
        Keeps.ite (fun _ => exits _ _) fun _ => Keeps.ite (fun _ => exits _ _) fun _ => Keeps.pure _

theorem waitResults (fuel : Nat) : Drives k (waitResults k fuel) := by
  refine Keeps.get_bind fun s => ?_
  split
  · exact refl_of (Driven k) s
  · rename_i g w waited
    refine driven_of_demand (.lib (.waitAllAndUpdateRegs fuel)) rfl fun planted => ?_
    simp only [Demand.serve, Session.call, waited]
    exact ⟨_, rfl⟩
  · rename_i results g w waited
    refine driven_of_demand (.lib (.waitAllAndUpdateRegs fuel)) rfl fun planted => ?_
    simp only [Demand.serve, Session.call, waited]
    exact ⟨_, rfl⟩

theorem noteManaged (results : List ThreadStatus) (s : Debugger K) :
    Driven k s (s.noteManaged results) := by
  induction results generalizing s with
  | nil => exact driven_of_same rfl rfl rfl
  | cons st rest ih =>
      have noted : Driven k s { s with world := s.world.record (.managed st) } :=
        driven_of_demand (.note (.managed st)) rfl fun planted => ⟨planted, rfl⟩
      exact trans_of (Driven k) noted (ih _)

theorem wait (fuel : Nat) : Drives k (wait k u fuel) :=
  (waitResults fuel).bind fun _ => Keeps.bind (Keeps.modify (noteManaged _)) fun _ =>
    Keeps.forM fun st _ => handleChange st _

theorem finishBacktrace (fuel : Nat) (threadId : Int) (returnAddress : Nat) :
    Drives k (finishBacktrace k u fuel threadId returnAddress) := by
  have sets : Drives k (setReturnBreakpoint k threadId returnAddress) :=
    Keeps.bind ((getHelper_keeps _).bind fun _ => Keeps.pure _) fun _ =>
      (newBreakpoint _).bind fun bp => (setBreakpoint bp _).bind fun _ => Keeps.pure _
  have prepares : Drives k (prepareFinish k threadId returnAddress) := by
    refine Keeps.get.bind fun s => ?_
    split
    · refine Keeps.bind (Keeps.get.bind fun _ => Keeps.ite (fun _ => ?_) fun _ => Keeps.pure _)
        fun _ => Keeps.pure _
      exact enableBreakpoint _
    · exact sets.bind fun _ => Keeps.pure _
  exact prepares.bind fun ⟨bp, found⟩ => cont.bind fun _ => (wait fuel).bind
    fun _ => Keeps.ite (fun _ => unsetBreakpoint bp true) fun _ => Keeps.pure _

end Drives

/-! ### Commands -/

/-- Where the program returns or raises, it has driven the library. A loop of the library that has
not ended has no state to speak of. -/
def Finishes (k : Kernel K) (p : Py K α) : Prop := ∀ s,
  match p.run s with
  | .ok _ t | .error (.raised _) t => Driven k s t
  | .error .crash _ | .error .hang _ => True

namespace Finishes

theorem of_drives {p : Py K α} (drives : Drives k p) : Finishes k p := by
  intro s
  split
  · exact drives.of_ok ‹_›
  · exact drives.of_error ‹_›
  · trivial
  · trivial

theorem bind {β : Type} {p : Py K α} {f : α → Py K β} (first : Drives k p)
    (second : ∀ a, Finishes k (f a)) : Finishes k (p >>= f) := by
  intro s
  rw [EStateM.run_bind]
  rcases ended : p.run s with ⟨a, r⟩ | ⟨e, r⟩
  · have driven : Driven k s r := first.of_ok ended
    have rest := second a r
    dsimp only
    split <;> rename_i after <;> simp only [after] at rest
    · exact trans_of (Driven k) driven rest
    · exact trans_of (Driven k) driven rest
    · trivial
    · trivial
  · have driven : Driven k s r := first.of_error ended
    cases e with
    | raised error => exact driven
    | crash => trivial
    | hang => trivial

/-- A stepping loop of the library -/
theorem loop {f : GlobalState → World K → Option Int × GlobalState × World K} (call : Call)
    (calls : ∀ processId planted g w result g' w', f g w = (some result, g', w') → ∃ after,
      (⟨g, w, planted⟩ : Session K).call k processId call = some ⟨g', w', after⟩) :
    Finishes k (callLib f >>= checkLoop k) := by
  intro s
  rw [EStateM.run_bind, callLib_run]
  dsimp only
  rcases ended : f s.globalState s.world with ⟨_ | result, g, w⟩
  · trivial
  · have driven : Driven k s (s.withLib g w) :=
      driven_of_demand (.lib call) rfl fun planted => calls _ _ _ _ _ _ _ ended
    have checked := of_drives (Drives.raiseErrnoIf (k := k) (result = -1)) (s.withLib g w)
    dsimp only [checkLoop]
    split <;> rename_i after <;> simp only [after] at checked
    · exact trans_of (Driven k) driven checked
    · exact trans_of (Driven k) driven checked
    · trivial
    · trivial

theorem stepUntil (fuel : Nat) (threadId : Int) (address : Nat) (maxSteps : Int) :
    Finishes k (stepUntil k fuel threadId address maxSteps) := by
  refine bind Drives.disableForStep fun _ => loop (.stepUntil fuel threadId address maxSteps) ?_
  intro processId planted g w result g' w' ended
  simp only [Session.call, ended]
  exact ⟨_, rfl⟩

theorem finish (fuel : Nat) (threadId : Int) (heuristic : String) (returnAddress : Option Nat) :
    Finishes k (finish k u fuel threadId heuristic returnAddress) := by
  unfold Ptrace.finish
  split
  · refine loop (.steppingFinish fuel threadId) ?_
    intro processId planted g w result g' w' ended
    simp only [Session.call, ended]
    exact ⟨_, rfl⟩
  · refine of_drives (Keeps.ite (fun _ => ?_) fun _ => Keeps.throw _)
    split
    · exact Drives.finishBacktrace _ _ _
    · exact Keeps.throw _

theorem program (command : Command) : Finishes k (command.program k u) := by
  cases command with
  | registerNewThread threadId => exact of_drives (.registerNewThread threadId)
  | setupParent fuel =>
      exact of_drives (Keeps.bind (Drives.privately fun _ => ⟨rfl, rfl, rfl⟩) fun _ =>
        (Drives.wait fuel).bind fun _ => Drives.privately fun _ => ⟨rfl, rfl, rfl⟩)
  | act action => exact of_drives (Keeps.modify (Drives.perform action))
  | breakpoint => exact of_drives (.breakpoint _ _ _ _ _ _)
  | handleSyscall =>
      refine of_drives (ensureAlive_keeps.bind fun _ => Drives.privately fun s => ?_)
      unfold Debugger.putHandler
      split <;> exact ⟨rfl, rfl, rfl⟩
  | catchSignal number callback recursive =>
      refine of_drives (ensureAlive_keeps.bind fun _ => Keeps.bind ?_ fun _ => Keeps.bind ?_
        fun _ => Drives.privately fun _ => ⟨rfl, rfl, rfl⟩)
      · unfold checkCatchable
        split_ifs <;> first | exact Keeps.throw _ | exact Keeps.pure _
      · exact Keeps.ite (fun _ => Keeps.pure _) fun _ => Keeps.throw _
  | interrupt => exact of_drives (Drives.privately fun _ => ⟨rfl, rfl, rfl⟩)
  | cont => exact of_drives .cont
  | step threadId => exact of_drives (.step threadId)
  | stepUntil => exact .stepUntil _ _ _ _
  | finish => exact .finish _ _ _ _
  | wait fuel => exact of_drives (Keeps.bind (Drives.privately fun _ => ⟨rfl, rfl, rfl⟩) fun _ =>
      Drives.wait fuel)

end Finishes

theorem command_driven {next : Debugger K} {command : Command}
    (done : s.command k u command = some next) : Driven k s next := by
  have finishes := Finishes.program (k := k) (u := u) command s
  unfold Debugger.command at done
  split at done <;> rename_i ended <;> simp only [ended] at finishes <;> cases done <;>
    exact finishes

/-! ### Sessions -/

/-- What every call of the library keeps holds after any demands on it. -/
theorem library_invariant {P : GlobalState → Prop} {processId : Int} {s next : Session K}
    {demands : List Demand}
    (calls : ∀ {s next : Session K} {call : Call}, P s.g → s.call k processId call = some next →
      P next.g)
    (flag : ∀ {g : GlobalState} enabled, P g → P { g with handleSyscallEnabled := enabled })
    (initial : P s.g) (ran : (library k processId).run s demands = some next) : P next.g := by
  refine Machine.run_invariant (motive := fun s => P s.g) ?_ initial Machine.meets_always ran
  intro s demand next holds _ served
  cases demand with
  | lib call => exact calls holds served
  | pokeUser threadId address value =>
      simp only [library, Demand.serve] at served
      split at served <;> cases served <;> exact holds
  | handleSyscallEnabled enabled =>
      cases served
      exact flag enabled holds
  | osWaitpid | note =>
      cases served
      exact holds

/-- **A session of the debugger is one of the C library**: whatever the commands and the functions
of the user do to the lists of the library and to the tracee is what calls of the library do, and
a few demands on the kernel beside them. So the list of breakpoints is in the order of addresses
and no two nodes of the list of threads are for one thread or have one register file, as in every
session of the library. -/
theorem debugging_drives_library {world : World K} {commands : List Command}
    (reached : (debugging k u).run (.initial world) commands = some s) :
    (∃ demands planted, (library k 0).run (.initial world) demands =
      some ⟨s.globalState, s.world, planted⟩) ∧
    Increasing s.globalState.bHead ∧ NodesApart s.globalState := by
  obtain ⟨demands, ⟨g, w, planted⟩, ran, -, rfl, rfl⟩ :=
    Machine.run_simulated (N := library k 0)
      (R := fun (s : Debugger K) (other : Session K) =>
        s.processId = 0 ∧ s.globalState = other.g ∧ s.world = other.w)
      (fun s command next ⟨g, w, planted⟩ ⟨pid, nodes, world⟩ done => by
        obtain ⟨same, drives⟩ := command_driven done
        obtain ⟨demands, after, ran⟩ := drives planted
        rw [pid, nodes, world] at ran
        exact ⟨demands, _, ran, same.trans pid, rfl, rfl⟩)
      (.initial world) ⟨rfl, rfl, rfl⟩ reached
  have empty : Increasing (Session.initial world).g.bHead := List.Pairwise.nil
  refine ⟨⟨demands, planted, ran⟩, ?_, ?_⟩
  · exact library_invariant (P := fun g => Increasing g.bHead) Session.call_increasing
      (fun _ increasing => increasing) empty ran
  · exact library_invariant (P := NodesApart) Session.call_nodesApart
      (fun _ apart => apart.congr rfl rfl) nodesApart_empty ran

/-- Two software breakpoints and a hardware one, and a stop -/
def threeBreakpoints : List Command :=
  [.registerNewThread 1, .breakpoint 0x2000 "" false none 1 none,
    .breakpoint 0x1000 "" false none 1 none, .breakpoint 0x3000 "" true none 1 none, .cont, .wait 2]

def stoppedOnce : World Script := .nops
  { registers := fun _ => some fun _ => 0
    reports := [some ⟨1, 4991, .tracerStop⟩, none] }

/-- The library is left with the two software breakpoints, in the order of addresses. -/
theorem threeBreakpoints_drive_library : ∃ s,
    (debugging scripted idle).run (.initial stoppedOnce) threeBreakpoints = some s ∧
    s.globalState.bHead.map (·.addr) = [0x1000, 0x2000] ∧ Increasing s.globalState.bHead ∧
    ∃ demands planted, (library scripted 0).run (.initial stoppedOnce) demands =
      some ⟨s.globalState, s.world, planted⟩ := by
  obtain ⟨s, reached, listed⟩ : ∃ s,
      (debugging scripted idle).run (.initial stoppedOnce) threeBreakpoints = some s ∧
      s.globalState.bHead.map (·.addr) = [0x1000, 0x2000] :=
    Machine.exists_of_run (by decide +kernel)
  obtain ⟨driven, increasing, -⟩ := debugging_drives_library reached
  exact ⟨s, reached, listed, increasing, driven⟩

end Libdebug.Ptrace
