import Libdebug.Ptrace.Interface

/-!
What the user can do to a stopped process, in a callback or between two commands,
and the functions of the user that the status handler calls.

Such a function is given by what it does in each state: a list of actions, after which
it returns or raises. Functions that resume the process themselves are left out.
-/

namespace Libdebug.Ptrace

open Libdebug.Foundation Libdebug.Cffi

inductive Action where
  /-- assign a register of a thread context, through its register file -/
  | setRegister (file : Ptr) (reg : Reg) (value : Nat)
  /-- `thread.signal = signal`, on the thread context at a position of `threads` -/
  | setSignal (thread : Nat) (signal : Nat)
  | enableBreakpoint (bp : Ref)
  | disableBreakpoint (bp : Ref)
  | enableHandler (syscallNumber : Nat)
  | disableHandler (syscallNumber : Nat)
  | enableCatcher (signalNumber : Nat)
  | disableCatcher (signalNumber : Nat)
  | pokeMemory (address : Nat) (value : Word)
  deriving DecidableEq

variable {K : Type}

namespace Debugger

variable (s : Debugger K)

/-- The setter of `ThreadContext.signal`. -/
def setSignal (thread : Nat) (signal : Nat) : Debugger K :=
  match s.threads[thread]? with
  | none => s
  | some t =>
      { s.updateThread thread ({ · with signalNumber := signal }) with
        resumeContext :=
          { s.resumeContext with
            threadsWithSignalsToForward :=
              s.resumeContext.threadsWithSignalsToForward ++ [t.threadId] }
        world := s.world.record (.chose t.threadId signal) }

def perform : Action → Debugger K
  | .setRegister file reg value => s.writeReg file reg value
  | .setSignal thread signal => s.setSignal thread signal
  | .enableBreakpoint bp => s.updateBreakpoint bp ({ · with enabled := true, changed := true })
  | .disableBreakpoint bp => s.updateBreakpoint bp ({ · with enabled := false, changed := true })
  | .enableHandler number =>
      s.updateHandler number ({ · with enabled := true, hasEntered := false })
  | .disableHandler number =>
      s.updateHandler number ({ · with enabled := false, hasEntered := false })
  | .enableCatcher number => s.updateCatcher number ({ · with enabled := true })
  | .disableCatcher number => s.updateCatcher number ({ · with enabled := false })
  | .pokeMemory address value => { s with world := s.world.pokedata address value }

def performAll (actions : List Action) : Debugger K := actions.foldl perform s

end Debugger

/-- What each function of the user does, called on a thread in a state. -/
abbrev UserCode (K : Type) := Callback → Int → Debugger K → List Action × Option PyError

/-- Functions that do nothing. -/
def idle : UserCode K := fun _ _ _ => ([], none)

variable (u : UserCode K)

def Debugger.noteCall (s : Debugger K) (call : CallSite × Int) : Debugger K :=
  { s with called := call :: s.called }

/-- Call a function of the user. -/
def runCallback (site : CallSite) (callback : Callback) (threadId : Int) : Py K Unit := do
  modify (·.noteCall (site, threadId))
  let s ← get
  let (actions, raised) := u callback threadId s
  modify (·.performAll actions)
  match raised with
  | none => pure ()
  | some error => raise error

/-! ### What functions of the user leave alone -/

variable {u}

namespace Debugger

theorem hitCount_perform (s : Debugger K) (action : Action) (bp : Ref) :
    ((s.perform action).objects bp).hitCount = (s.objects bp).hitCount := by
  cases action with
  | enableBreakpoint changed | disableBreakpoint changed =>
      by_cases same : bp = changed
      · subst same
        simp [perform, updateBreakpoint]
      · simp [perform, updateBreakpoint, same]
  | setSignal thread signal =>
      simp only [perform, setSignal]
      split <;> rfl
  | _ => rfl

theorem readReg_perform {s : Debugger K} {action : Action} {thread : ThreadContext} {reg : Reg}
    (other : ∀ value, action ≠ .setRegister thread.registerFile reg value) :
    (s.perform action).readReg thread reg = s.readReg thread reg := by
  cases action with
  | setRegister file written value =>
      by_cases sameFile : thread.registerFile = file
      · have otherReg : reg ≠ written := by
          rintro rfl
          exact other value (by rw [sameFile])
        simp [perform, writeReg, readReg, GlobalState.setFile, sameFile, otherReg]
      · simp [perform, writeReg, readReg, GlobalState.setFile, sameFile]
  | setSignal thread signal =>
      simp only [perform, setSignal]
      split <;> rfl
  | _ => rfl

theorem hitCount_performAll (s : Debugger K) (actions : List Action) (bp : Ref) :
    ((s.performAll actions).objects bp).hitCount = (s.objects bp).hitCount := by
  induction actions generalizing s with
  | nil => rfl
  | cons action rest ih => exact (ih (s.perform action)).trans (hitCount_perform s action bp)

theorem readReg_performAll {s : Debugger K} {actions : List Action} {thread : ThreadContext}
    {reg : Reg} (other : ∀ value, .setRegister thread.registerFile reg value ∉ actions) :
    (s.performAll actions).readReg thread reg = s.readReg thread reg := by
  induction actions generalizing s with
  | nil => rfl
  | cons action rest ih =>
      have here : ∀ value, action ≠ .setRegister thread.registerFile reg value :=
        fun value same => other value (same ▸ List.mem_cons_self)
      have later : ∀ value, .setRegister thread.registerFile reg value ∉ rest :=
        fun value member => other value (List.mem_cons_of_mem _ member)
      exact (ih later).trans (readReg_perform here)

theorem called_perform (s : Debugger K) (action : Action) :
    (s.perform action).called = s.called := by
  cases action with
  | setSignal thread signal =>
      simp only [perform, setSignal]
      split <;> rfl
  | _ => rfl

theorem called_performAll (s : Debugger K) (actions : List Action) :
    (s.performAll actions).called = s.called := by
  induction actions generalizing s with
  | nil => rfl
  | cons action rest ih => exact (ih (s.perform action)).trans (called_perform s action)

theorem identities_perform (s : Debugger K) (action : Action) :
    (s.perform action).identities = s.identities := by
  cases action with
  | setSignal thread signal =>
      simp only [perform, setSignal]
      split
      · rfl
      · exact identities_updateThread s thread fun _ => rfl
  | _ => rfl

theorem identities_performAll (s : Debugger K) (actions : List Action) :
    (s.performAll actions).identities = s.identities := by
  induction actions generalizing s with
  | nil => rfl
  | cons action rest ih => exact (ih (s.perform action)).trans (identities_perform s action)

end Debugger

/-- The state after a function of the user: its actions, whether it returned or raised. -/
theorem stateAfter_runCallback (site : CallSite) (callback : Callback) (threadId : Int)
    (s : Debugger K) : stateAfter (runCallback u site callback threadId) s =
      (s.noteCall (site, threadId)).performAll
        (u callback threadId (s.noteCall (site, threadId))).1 := by
  simp only [runCallback, stateAfter_modify_bind, stateAfter_get_bind]
  split <;> rfl

/-- A function of the user that returns. -/
theorem run_runCallback {site : CallSite} {callback : Callback} {threadId : Int} {s : Debugger K}
    (returns : (u callback threadId (s.noteCall (site, threadId))).2 = none) :
    (runCallback u site callback threadId).run s = .ok () ((s.noteCall (site, threadId)).performAll
      (u callback threadId (s.noteCall (site, threadId))).1) := by
  simp only [runCallback, EStateM.run_bind, EStateM.run_modify, EStateM.run_get, returns]
  rfl

theorem runCallback_hitCount (site : CallSite) (callback : Callback) (threadId : Int) (bp : Ref) :
    Leaves (fun s => (s.objects bp).hitCount) (runCallback u site callback threadId) := fun s => by
  rw [Same, stateAfter_runCallback]
  exact Debugger.hitCount_performAll _ _ bp

theorem runCallback_readReg (site : CallSite) (callback : Callback) (threadId : Int)
    {thread : ThreadContext} {reg : Reg}
    (quiet : ∀ s value, .setRegister thread.registerFile reg value ∉ (u callback threadId s).1) :
    Leaves (fun s => s.readReg thread reg) (runCallback u site callback threadId) := fun s => by
  rw [Same, stateAfter_runCallback]
  exact Debugger.readReg_performAll (quiet _)

end Libdebug.Ptrace
