import Libdebug.Ptrace.Commands
import Libdebug.Cffi.History

/-!
Which fields of the state each method may change.

A method that touches the fields in `F` leaves every other one as it was. Breakpoint
objects count as left alone while nothing happens to them but what the user and the
status handler may do: a flag that is set or reset is marked as changed.
-/

namespace Libdebug.Ptrace

open Libdebug.Foundation Libdebug.Cffi

inductive Field where
  /-- `b_HEAD` -/
  | table
  /-- `t_HEAD`, and the next address for a node -/
  | nodes
  /-- the statuses that `wait_all_and_update_regs` collected -/
  | collected
  /-- the statuses handed to the status handler -/
  | managed
  /-- the signals chosen, and those threads were resumed with -/
  | injections
  | objects
  | breakpoints
  | helpers
  | threads
  | identities
  | pending
  | forwardSignal
  /-- `is_a_step` -/
  | stepping
  | applied
  deriving DecidableEq

variable {K : Type}

/-- What a breakpoint is stays, and its flag does or is marked. -/
def Breakpoint.Toggled (before after : Breakpoint) : Prop :=
  (after.address = before.address ∧ after.hardware = before.hardware ∧
    after.condition = before.condition ∧ after.length = before.length) ∧
    (after.enabled = before.enabled ∧ after.changed = before.changed ∨ after.changed = true)

instance : IsPreorder Breakpoint Breakpoint.Toggled where
  refl _ := ⟨⟨rfl, rfl, rfl, rfl⟩, .inl ⟨rfl, rfl⟩⟩
  trans _ _ _ first second := by
    obtain ⟨⟨address, hardware, condition, length⟩, flags⟩ := first
    obtain ⟨⟨address', hardware', condition', length'⟩, flags'⟩ := second
    refine ⟨⟨address'.trans address, hardware'.trans hardware, condition'.trans condition,
      length'.trans length⟩, ?_⟩
    rcases flags' with ⟨flag, mark⟩ | marked
    · exact flags.imp (fun same => ⟨flag.trans same.1, mark.trans same.2⟩) mark.trans
    · exact .inr marked

/-- Every breakpoint object that exists has at most been toggled. -/
def Debugger.Toggles (s t : Debugger K) : Prop :=
  s.nextRef ≤ t.nextRef ∧ ∀ bp < s.nextRef, (s.objects bp).Toggled (t.objects bp)

instance : IsPreorder (Debugger K) Debugger.Toggles where
  refl _ := ⟨le_rfl, fun _ _ => refl_of Breakpoint.Toggled _⟩
  trans _ _ _ first second := ⟨first.1.trans second.1, fun bp old =>
    trans_of Breakpoint.Toggled (first.2 bp old) (second.2 bp (old.trans_le first.1))⟩

/-- When two states agree on a field. -/
def Field.same : Field → Debugger K → Debugger K → Prop
  | .table => Same (·.globalState.bHead)
  | .nodes => Same fun s => (s.globalState.tHead, s.globalState.fresh)
  | .collected => Same fun s => reapedAt .waitAllAndUpdateRegs s.world.log
  | .managed => Same fun s => Cffi.managed s.world.log
  | .injections => Same fun s => Cffi.injections s.world.log
  | .objects => Debugger.Toggles
  | .breakpoints => Same (·.breakpoints)
  | .helpers => Same (·.hardwareBpHelpers)
  | .threads => Same (·.threads)
  | .identities => Same (·.identities)
  | .pending => Same (·.resumeContext.threadsWithSignalsToForward)
  | .forwardSignal => Same (·.forwardSignal)
  | .stepping => Same (·.resumeContext.isAStep)
  | .applied => Same (·.applied)

instance (field : Field) : IsPreorder (Debugger K) field.same := by
  cases field <;> unfold Field.same <;> infer_instance

/-- The method changes the fields in `F` at most. -/
abbrev Touches {α : Type} (F : Finset Field) (p : Py K α) : Prop := Keeps (Changes Field.same F) p

variable {k : Kernel K} {u : UserCode K} {F : Finset Field} {α : Type}

/-! ### Calls of the C layer -/

/-- What the C layer does to its own state, seen as a step of the debugger. -/
def Debugger.withLib (s : Debugger K) (g : GlobalState) (w : World K) : Debugger K :=
  { s with globalState := g, world := w }

/-- A sequence of requests changes no table, and the history where it waits or resumes. -/
theorem changes_of_performs {allowed : Request → Prop} {s : Debugger K} {g : GlobalState}
    {w : World K} (performed : Performs k allowed (s.globalState, s.world) (g, w))
    (collects : .collected ∈ F ∨
      ∀ target nohang, ¬ allowed (.waitpid .waitAllAndUpdateRegs target nohang))
    (injects : .injections ∈ F ∨ (∀ tid signal, ¬ allowed (.singlestep tid signal)) ∧
      ∀ syscalls tid signal, ¬ allowed (.cont syscalls tid signal)) :
    Changes Field.same F s (s.withLib g w) := by
  intro field outside
  cases field with
  | table => exact performed.bHead
  | nodes => exact Prod.ext performed.tHead performed.fresh
  | collected => exact performed.reapedAt (collects.resolve_left outside)
  | managed => exact performed.managed
  | injections =>
      obtain ⟨still, stays⟩ := injects.resolve_left outside
      exact performed.injections still stays
  | objects => exact refl_of Debugger.Toggles s
  | _ => rfl

/-- Patching memory, and changing the list of threads or the table. -/
theorem changes_of_log {s : Debugger K} {g : GlobalState} {w : World K}
    (table : .table ∈ F ∨ g.bHead = s.globalState.bHead)
    (nodes : .nodes ∈ F ∨ (g.tHead, g.fresh) = (s.globalState.tHead, s.globalState.fresh))
    (log : w.log = s.world.log) : Changes Field.same F s (s.withLib g w) := by
  intro field outside
  cases field with
  | table => exact table.resolve_left outside
  | nodes => exact nodes.resolve_left outside
  | collected => exact congrArg (reapedAt .waitAllAndUpdateRegs) log
  | managed => exact congrArg Cffi.managed log
  | injections => exact congrArg Cffi.injections log
  | objects => exact refl_of Debugger.Toggles s
  | _ => rfl

theorem touches_callLib {f : GlobalState → World K → α × GlobalState × World K}
    (changes : ∀ s : Debugger K, Changes Field.same F s
      (s.withLib (f s.globalState s.world).2.1 (f s.globalState s.world).2.2)) :
    Touches F (callLib f) := changes

theorem touches_callLib? {f : GlobalState → World K → Option (GlobalState × World K)}
    (changes : ∀ (s : Debugger K) g w, f s.globalState s.world = some (g, w) →
      Changes Field.same F s (s.withLib g w)) :
    Touches F (callLib? f) := Keeps.get_bind fun s => by
  split
  · rename_i g w called
    exact changes s g w called
  · exact refl_of (Changes Field.same F) s

theorem singlestep_changes (threadId : Int) (s : Debugger K) :
    Changes Field.same {.nodes, .injections} s
      (s.withLib (singlestep k s.globalState s.world threadId).2.1
        (singlestep k s.globalState s.world threadId).2.2) := by
  obtain ⟨signal, w, stepped, performed⟩ := singlestep_spec (k := k) s.globalState s.world threadId
  rw [stepped]
  have steps : Changes Field.same {.nodes, .injections} s (s.withLib s.globalState w) :=
    changes_of_performs performed (.inr (by simp [Request.Flushing])) (.inl (by decide))
  refine trans_of (Changes Field.same _) steps ?_
  exact changes_of_log (.inr rfl) (.inl (by decide)) rfl

theorem prepareForRun_changes (s : Debugger K) :
    Changes Field.same {.injections} s
      (s.withLib s.globalState (prepareForRun k s.globalState s.world).2) := by
  obtain ⟨w, performed, ended⟩ := prepareForRun_spec (k := k) s.globalState s.world
  have steps : Changes Field.same {.injections} s (s.withLib s.globalState w) :=
    changes_of_performs performed (.inr (by simp [Request.Flushing, Request.SteppingOver]))
      (.inl (by decide))
  rcases ended with gaveUp | ⟨status, -, armed⟩
  · rw [gaveUp]
    exact steps
  · rw [armed, armBreakpoints_eq]
    refine trans_of (Changes Field.same _) steps ?_
    exact changes_of_log (.inr rfl) (.inr rfl) rfl

theorem contAllAndSetBps_changes (s : Debugger K) :
    Changes Field.same {.nodes, .injections} s
      (s.withLib (contAllAndSetBps k s.globalState s.world).2.1
        (contAllAndSetBps k s.globalState s.world).2.2) := by
  have prepared := (prepareForRun_changes (k := k) s).mono
    (by decide : {.injections} ⊆ ({.nodes, .injections} : Finset Field))
  have resumed := resumeLoop_performs (k := k) s.globalState.handleSyscallEnabled
    s.globalState.tHead s.globalState (prepareForRun k s.globalState s.world).2
  refine trans_of (Changes Field.same _) prepared ?_
  refine trans_of (Changes Field.same _) (b := s.withLib s.globalState
    (contAllAndSetBps k s.globalState s.world).2.2) ?_ ?_
  · exact changes_of_performs (s := s.withLib _ _) resumed (.inr (by simp [Request.Resuming]))
      (.inl (by decide))
  · exact changes_of_log (.inr rfl) (.inl (by decide)) rfl

theorem stepUntil_changes (fuel : Nat) (threadId : Int) (address : Nat) (maxSteps : Int)
    (s : Debugger K) :
    Changes Field.same {.injections} s
      (s.withLib (Cffi.stepUntil k fuel s.globalState s.world threadId address maxSteps).2.1
        (Cffi.stepUntil k fuel s.globalState s.world threadId address maxSteps).2.2) :=
  changes_of_performs (stepUntil_performs ..)
    (.inr (by simp [Request.Flushing, Request.Stepping])) (.inl (by decide))

theorem steppingFinish_changes (fuel : Nat) (threadId : Int) (s : Debugger K) :
    Changes Field.same {.injections} s
      (s.withLib (steppingFinish k fuel s.globalState s.world threadId).2.1
        (steppingFinish k fuel s.globalState s.world threadId).2.2) := by
  obtain ⟨g, w, performed, ended⟩ :=
    steppingFinish_spec (k := k) fuel s.globalState s.world threadId
  have steps : Changes Field.same {.injections} s (s.withLib g w) :=
    trans_of (Changes Field.same _) (prepareForRun_changes s) <|
      changes_of_performs (s := s.withLib _ _) performed (.inr (by simp [Request.Stepping]))
        (.inl (by decide))
  rcases ended with looping | failed | done
  · rw [looping]
    exact steps
  · rw [failed]
    exact steps
  · rw [done, restoreBreakpoints_eq]
    refine trans_of (Changes Field.same _) steps ?_
    exact changes_of_log (.inr rfl) (.inr rfl) rfl

theorem waitAllAndUpdateRegs_changes (fuel : Nat) (s : Debugger K) :
    Changes Field.same {.collected} s
      (s.withLib (waitAllAndUpdateRegs k fuel s.globalState s.world s.processId).2.1
        (waitAllAndUpdateRegs k fuel s.globalState s.world s.processId).2.2) := by
  obtain ⟨g, w, performed, ended⟩ :=
    waitAllAndUpdateRegs_spec (k := k) fuel s.globalState s.world s.processId
  have collected : Changes Field.same {.collected} s (s.withLib g w) :=
    changes_of_performs performed (.inl (by decide)) (.inr (by simp [Request.Collecting]))
  rcases ended with polling | null | ⟨list, done⟩
  · rw [polling]
    exact collected
  · rw [null]
    exact collected
  · rw [done, restoreBreakpoints_eq]
    refine trans_of (Changes Field.same _) collected ?_
    exact changes_of_log (.inr rfl) (.inr rfl) rfl

/-! ### Breakpoint objects -/

theorem toggles_updateBreakpoint (s : Debugger K) (bp : Ref) {f : Breakpoint → Breakpoint}
    (toggled : ∀ b : Breakpoint, b.Toggled (f b)) : s.Toggles (s.updateBreakpoint bp f) := by
  refine ⟨le_rfl, fun other _ => ?_⟩
  by_cases same : other = bp
  · subst same
    simpa [Debugger.updateBreakpoint] using toggled (s.objects other)
  · simpa [Debugger.updateBreakpoint, same] using refl_of Breakpoint.Toggled (s.objects other)

/-- An update of a breakpoint object that toggles it at most is no change. -/
theorem changes_updateBreakpoint (s : Debugger K) (bp : Ref) {f : Breakpoint → Breakpoint}
    (toggled : ∀ b : Breakpoint, b.Toggled (f b)) :
    Changes Field.same F s (s.updateBreakpoint bp f) := by
  intro field _
  cases field with
  | objects => exact toggles_updateBreakpoint s bp toggled
  | _ => rfl

theorem newBreakpoint_touches (bp : Breakpoint) : Touches F (newBreakpoint bp : Py K Ref) := by
  intro s field _
  cases field with
  | objects =>
      refine ⟨Nat.le_succ _, fun other old => ?_⟩
      have kept : (stateAfter (newBreakpoint bp) s).objects other = s.objects other :=
        Function.update_of_ne old.ne _ _
      rw [kept]
      exact refl_of Breakpoint.Toggled _
  | _ => rfl

/-! ### Hardware breakpoints -/

theorem raise_touches (error : PyError) : Touches F (raise error : Py K α) := Keeps.throw _

theorem raiseErrnoIf_touches (failed : Prop) [Decidable failed] :
    Touches F (raiseErrnoIf k failed) :=
  Keeps.get.bind fun _ => Keeps.ite (fun _ => raise_touches _) fun _ => Keeps.pure _

theorem peekUser_touches (threadId : Int) (address : Nat) :
    Touches F (peekUser k threadId address) := by
  refine Keeps.get.bind fun s => ?_
  split
  · exact Keeps.pure _
  · exact raise_touches _

theorem pokeUser_touches (threadId : Int) (address value : Nat) :
    Touches F (pokeUser k threadId address value) := by
  refine Keeps.modify fun s => ?_
  split
  · exact changes_of_log (.inr rfl) (.inr rfl) rfl
  · exact refl_of (Changes Field.same F) s

theorem getHelper_touches (threadId : Int) :
    Touches F (getHelper threadId : Py K HardwareBreakpointManager) := by
  refine Keeps.get.bind fun s => ?_
  split
  · exact Keeps.pure _
  · exact raise_touches _

theorem setDebugReg_touches (threadId : Int) (register : DebugReg) (bp : Option Ref)
    (breakpointCount : Nat → Nat) : Touches {.helpers}
      (modify (·.setDebugReg threadId register bp breakpointCount) : Py K Unit) := by
  refine Keeps.modify fun s field outside => ?_
  cases field with
  | helpers => simp at outside
  | objects => exact refl_of Debugger.Toggles s
  | _ => rfl

theorem installBreakpoint_touches (threadId : Int) (bp : Ref) :
    Touches {.helpers} (installBreakpoint k threadId bp) := by
  refine (getHelper_touches _).bind fun helper => Keeps.get.bind fun s => ?_
  refine Keeps.ite (fun _ => raise_touches _) fun _ => ?_
  split
  · exact raise_touches _
  · refine (pokeUser_touches _ _ _).bind fun _ => ?_
    split
    · exact (peekUser_touches _ _).bind fun _ => (pokeUser_touches _ _ _).bind fun _ =>
        setDebugReg_touches _ _ _ _
    · exact raise_touches _

theorem removeBreakpoint_touches (threadId : Int) (bp : Ref) :
    Touches {.helpers} (removeBreakpoint k threadId bp) := by
  refine (getHelper_touches _).bind fun helper => Keeps.get.bind fun s => ?_
  refine Keeps.ite (fun _ => raise_touches _) fun _ => ?_
  split
  · exact raise_touches _
  · exact (pokeUser_touches _ _ _).bind fun _ => (peekUser_touches _ _).bind fun _ =>
      (pokeUser_touches _ _ _).bind fun _ => setDebugReg_touches _ _ _ _

theorem availableBreakpoints_touches (threadId : Int) :
    Touches F (availableBreakpoints threadId : Py K Nat) :=
  (getHelper_touches _).bind fun _ => Keeps.pure _

theorem isWatchpointHit_touches (threadId : Int) : Touches F (isWatchpointHit k threadId) := by
  refine (getHelper_touches _).bind fun helper => (peekUser_touches _ _).bind fun dr6 =>
    Keeps.get.bind fun s => ?_
  split <;> exact Keeps.pure _

/-! ### Setting and unsetting breakpoints -/

theorem setSwBreakpoint_touches (bp : Ref) : Touches {.table} (setSwBreakpoint bp : Py K Unit) := by
  refine Keeps.get.bind fun s => touches_callLib fun t => ?_
  rcases registerBreakpoint_cases t.globalState t.world (s.objects bp).address with
    ⟨_, _, registered⟩ | ⟨_, _, _, _, _, registered⟩ <;>
  · rw [registered]
    exact changes_of_log (.inl (by decide)) (.inr rfl) rfl

theorem unsetSwBreakpoint_touches (bp : Ref) :
    Touches {.table} (unsetSwBreakpoint bp : Py K Unit) :=
  Keeps.get.bind fun _ => touches_callLib fun _ => changes_of_log (.inl (by decide)) (.inr rfl) rfl

theorem enableBreakpoint_touches (bp : Ref) :
    Touches {.table} (enableBreakpoint bp : Py K Unit) := by
  refine Keeps.get.bind fun s => touches_callLib? fun t g w switched => ?_
  rcases enableBreakpoint_cases switched with ⟨-, rfl, rfl⟩ | ⟨_, -, rfl, rfl⟩
  · exact changes_of_log (.inr rfl) (.inr rfl) rfl
  · exact changes_of_log (.inl (by decide)) (.inr rfl) rfl

theorem disableBreakpoint_touches (bp : Ref) :
    Touches {.table} (disableBreakpoint bp : Py K Unit) := by
  refine Keeps.get.bind fun s => touches_callLib? fun t g w switched => ?_
  rcases disableBreakpoint_cases switched with ⟨-, rfl, rfl⟩ | ⟨_, -, rfl, rfl⟩
  · exact changes_of_log (.inr rfl) (.inr rfl) rfl
  · exact changes_of_log (.inl (by decide)) (.inr rfl) rfl

theorem placeBreakpoint_touches (bp : Ref) (insert : Bool) :
    Touches {.table, .helpers} (placeBreakpoint k bp insert) := by
  refine Keeps.get.bind fun s => Keeps.ite (fun _ => ?_)
    fun _ => Keeps.ite (fun _ => ?_) fun _ => ?_
  · exact Keeps.forM fun threadId _ => (installBreakpoint_touches threadId bp).mono (by decide)
  · exact (setSwBreakpoint_touches bp).mono (by decide)
  · exact (enableBreakpoint_touches bp).mono (by decide)

theorem displaceBreakpoint_touches (bp : Ref) (delete : Bool) :
    Touches {.table, .helpers} (displaceBreakpoint k bp delete) := by
  refine Keeps.get.bind fun s => Keeps.ite (fun _ => ?_)
    fun _ => Keeps.ite (fun _ => ?_) fun _ => ?_
  · exact Keeps.forM fun threadId _ => (removeBreakpoint_touches threadId bp).mono (by decide)
  · exact (unsetSwBreakpoint_touches bp).mono (by decide)
  · exact (disableBreakpoint_touches bp).mono (by decide)

/-- An assignment to the dictionary of breakpoints. -/
theorem modify_breakpoints_touches (f : Debugger K → Dict Nat Ref) : Touches {.breakpoints}
    (modify fun s => { s with breakpoints := f s } : Py K Unit) := by
  refine Keeps.modify fun s field outside => ?_
  cases field with
  | breakpoints => simp at outside
  | objects => exact refl_of Debugger.Toggles s
  | _ => rfl

theorem setBreakpoint_touches (bp : Ref) (insert : Bool) :
    Touches {.table, .helpers, .breakpoints} (setBreakpoint k bp insert) := by
  refine ((placeBreakpoint_touches bp insert).mono (by decide)).bind fun _ => ?_
  refine Keeps.ite (fun _ => ?_) fun _ => Keeps.pure _
  exact (modify_breakpoints_touches _).mono (by decide)

theorem deleteBreakpoint_touches (bp : Ref) :
    Touches {.breakpoints} (deleteBreakpoint bp : Py K Unit) :=
  Keeps.get.bind fun _ => Keeps.ite (fun _ => modify_breakpoints_touches _) fun _ => raise_touches _

theorem unsetBreakpoint_touches (bp : Ref) (delete : Bool) :
    Touches {.table, .helpers, .breakpoints} (unsetBreakpoint k bp delete) := by
  refine ((displaceBreakpoint_touches bp delete).mono (by decide)).bind fun _ => ?_
  exact Keeps.ite (fun _ => (deleteBreakpoint_touches bp).mono (by decide)) fun _ => Keeps.pure _

/-! ### Threads and resuming -/

theorem registerNewThread_touches (threadId : Int) :
    Touches {.nodes, .threads, .identities, .helpers} (registerNewThread k threadId) := by
  refine Keeps.bind ((touches_callLib fun s => ?_ : Touches {.nodes} _).mono (by decide))
    fun file => ?_
  · exact changes_of_log (.inr (by simp only [registerThread]; split <;> simp))
      (.inl (by decide)) rfl
  · refine Keeps.bind (Keeps.modify fun s field outside => ?_) fun _ => Keeps.get.bind fun s => ?_
    · cases field with
      | threads | identities | helpers => simp at outside
      | objects => exact refl_of Debugger.Toggles s
      | _ => rfl
    · exact Keeps.forM fun bp _ => (installBreakpoint_touches _ bp).mono (by decide)

theorem setThreadAsDead_touches (threadId : Int) (exitCode exitSignal : Option Nat) :
    Touches {.threads, .identities}
      (modify (·.setThreadAsDead threadId exitCode exitSignal) : Py K Unit) := by
  refine Keeps.modify fun s field outside => ?_
  unfold Debugger.setThreadAsDead
  split
  · exact refl_of field.same s
  · cases field with
    | threads | identities => simp at outside
    | objects => exact refl_of Debugger.Toggles s
    | _ => rfl

theorem popHelper_touches (threadId : Int) :
    Touches {.helpers} (popHelper threadId : Py K Unit) := by
  refine Keeps.get.bind fun _ => Keeps.ite (fun _ => ?_) fun _ => raise_touches _
  refine Keeps.modify fun s field outside => ?_
  cases field with
  | helpers => simp at outside
  | objects => exact refl_of Debugger.Toggles s
  | _ => rfl

theorem unregisterThread_touches (threadId : Int) (exitCode exitSignal : Option Nat) :
    Touches {.nodes, .threads, .identities, .helpers}
      (unregisterThread threadId exitCode exitSignal : Py K Unit) := by
  refine Keeps.bind ((touches_callLib fun s => ?_ : Touches {.nodes} _).mono (by decide))
    fun _ => ?_
  · exact changes_of_log (.inr (by simp only [Cffi.unregisterThread]; split <;> rfl))
      (.inl (by decide)) rfl
  · exact ((setThreadAsDead_touches _ _ _).mono (by decide)).bind fun _ =>
      (popHelper_touches _).mono (by decide)

theorem forwardSignalTo_touches (node : Thread) :
    Touches {.nodes, .threads} (forwardSignalTo node : Py K Unit) := by
  refine Keeps.get.bind fun s => Keeps.ite (fun _ => ?_) fun _ => Keeps.pure _
  split
  · exact Keeps.throw _
  · refine Keeps.ite (fun _ => Keeps.modify fun t field outside => ?_) fun _ => Keeps.pure _
    cases field with
    | nodes | threads => simp at outside
    | identities => exact Debugger.identities_updateThread t _ fun _ => rfl
    | objects => exact refl_of Debugger.Toggles t
    | _ => rfl

theorem forwardSignals_touches :
    Touches {.nodes, .threads, .pending} (forwardSignals : Py K Unit) := by
  refine Keeps.get.bind fun s => Keeps.ite (fun _ => ?_) fun _ => Keeps.pure _
  refine Keeps.get.bind fun t => Keeps.bind
    (Keeps.forM fun node _ => (forwardSignalTo_touches node).mono (by decide)) fun _ => ?_
  refine Keeps.modify fun t field outside => ?_
  cases field with
  | pending => simp at outside
  | objects => exact refl_of Debugger.Toggles t
  | _ => rfl

theorem collectChanged_touches (bps : List Ref) :
    Touches {.objects} (collectChanged bps : Py K (List Ref)) := by
  induction bps with
  | nil => exact Keeps.pure _
  | cons bp rest ih =>
      refine Keeps.get.bind fun s => Keeps.bind (Keeps.modify fun t field outside => ?_) fun _ =>
        ih.bind fun changed => Keeps.pure _
      cases field with
      | objects => simp at outside
      | _ => rfl

theorem applyChange_touches (bp : Ref) :
    Touches {.table, .helpers, .breakpoints} (applyChange k bp) :=
  Keeps.get.bind fun _ =>
    Keeps.ite (fun _ => setBreakpoint_touches bp _) fun _ => unsetBreakpoint_touches bp _

theorem applyChanges_touches :
    Touches {.objects, .table, .helpers, .breakpoints} (applyChanges k) :=
  Keeps.get.bind fun _ => ((collectChanged_touches _).mono (by decide)).bind fun _ =>
    Keeps.forM fun bp _ => (applyChange_touches bp).mono (by decide)

/-- The last part of `cont`: the history, the flag for system calls, and the C layer. -/
theorem cont_touches :
    Touches {.nodes, .threads, .pending, .objects, .table, .helpers, .breakpoints, .applied,
      .injections} (cont k) := by
  refine (forwardSignals_touches.mono (by decide)).bind fun _ =>
    (applyChanges_touches.mono (by decide)).bind fun _ =>
      Keeps.bind (Keeps.modify fun s field outside => ?_) fun _ =>
        Keeps.bind (Keeps.modify fun s field outside => ?_) fun _ =>
          ((touches_callLib contAllAndSetBps_changes).mono (by decide)).bind fun _ =>
            raiseErrnoIf_touches _
  · cases field with
    | applied => simp at outside
    | objects => exact refl_of Debugger.Toggles s
    | _ => rfl
  · cases field with
    | objects => exact refl_of Debugger.Toggles s
    | _ => rfl

theorem disableForStep_touches : Touches F (disableForStep : Py K Unit) :=
  Keeps.get.bind fun _ => Keeps.forM fun bp _ => Keeps.modify fun s =>
    changes_updateBreakpoint s bp fun _ => ⟨⟨rfl, rfl, rfl, rfl⟩, .inl ⟨rfl, rfl⟩⟩

theorem step_touches (threadId : Int) :
    Touches {.nodes, .injections, .stepping} (step k threadId) := by
  refine disableForStep_touches.bind fun _ =>
    ((touches_callLib (singlestep_changes threadId)).mono (by decide)).bind fun _ =>
      (raiseErrnoIf_touches _).bind fun _ => Keeps.modify fun s field outside => ?_
  cases field with
  | stepping => simp at outside
  | objects => exact refl_of Debugger.Toggles s
  | _ => rfl

theorem checkLoop_touches (result : Option Int) : Touches F (checkLoop k result) := by
  unfold checkLoop
  split
  · exact Keeps.throw _
  · exact raiseErrnoIf_touches _

theorem stepUntil_touches (fuel : Nat) (threadId : Int) (address : Nat) (maxSteps : Int) :
    Touches {.injections} (stepUntil k fuel threadId address maxSteps) :=
  disableForStep_touches.bind fun _ =>
    (touches_callLib (stepUntil_changes fuel threadId address maxSteps)).bind fun _ =>
      checkLoop_touches _

/-! ### Functions of the user -/

theorem perform_changes (s : Debugger K) (action : Action) :
    Changes Field.same {.threads, .injections, .pending} s (s.perform action) := by
  cases action with
  | enableBreakpoint bp =>
      exact changes_updateBreakpoint (f := ({ · with enabled := true, changed := true })) s bp
        fun _ => ⟨⟨rfl, rfl, rfl, rfl⟩, .inr rfl⟩
  | disableBreakpoint bp =>
      exact changes_updateBreakpoint (f := ({ · with enabled := false, changed := true })) s bp
        fun _ => ⟨⟨rfl, rfl, rfl, rfl⟩, .inr rfl⟩
  | setSignal thread signal =>
      simp only [Debugger.perform, Debugger.setSignal]
      split
      · exact refl_of (Changes Field.same _) s
      · intro field outside
        cases field with
        | threads | injections | pending => simp at outside
        | identities => exact Debugger.identities_updateThread s _ fun _ => rfl
        | objects => exact refl_of Debugger.Toggles s
        | _ => rfl
  | _ =>
      intro field outside
      cases field with
      | objects => exact refl_of Debugger.Toggles s
      | _ => rfl

theorem performAll_changes (s : Debugger K) (actions : List Action) :
    Changes Field.same {.threads, .injections, .pending} s (s.performAll actions) := by
  induction actions generalizing s with
  | nil => exact refl_of (Changes Field.same _) s
  | cons action rest ih =>
      exact trans_of (Changes Field.same _) (perform_changes s action) (ih (s.perform action))

/-- What functions of the user may touch. -/
def userFields : Finset Field := {.threads, .injections, .pending}

theorem runCallback_touches (site : CallSite) (callback : Callback) (threadId : Int) :
    Touches userFields (runCallback u site callback threadId) := fun s => by
  rw [stateAfter_runCallback]
  refine trans_of (Changes Field.same _) (b := s.noteCall (site, threadId)) ?_
    (performAll_changes _ _)
  intro field _
  cases field with
  | objects => exact refl_of Debugger.Toggles s
  | _ => rfl

/-! ### The status handler

The handlers call functions of the user. What is said of them holds of every relation
that those functions keep and that does not see the fields the handlers change. -/

theorem resolveSignalName_touches (number : Nat) :
    Touches F (resolveSignalName number : Py K Unit) :=
  Keeps.ite (fun _ => Keeps.pure _) fun _ => raise_touches _

theorem osWaitpid_touches (threadId : Int) : Touches F (osWaitpid k threadId) := by
  refine Keeps.bind (touches_callLib fun s => ?_) fun _ => raiseErrnoIf_touches _
  have waited : Performs k (fun r => ∃ target nohang, r = .waitpid .handleClone target nohang)
      (s.globalState, s.world) (s.globalState, _) :=
    Performs.single (.waitpid .handleClone (.thread threadId) false) ⟨_, _, rfl⟩
  exact changes_of_performs waited (.inr (by simp)) (.inr (by simp))

/-- Setting a flag of the resume context that no field covers. -/
theorem setResume_touches (resume : Bool) :
    Touches F (modify (·.setResume resume) : Py K Unit) :=
  Keeps.modify fun s field _ => by
    cases field with
    | objects => exact refl_of Debugger.Toggles s
    | _ => rfl

theorem setForwardSignal_touches (forwardSignal : Bool) :
    Touches {.forwardSignal} (modify (·.setForwardSignal forwardSignal) : Py K Unit) :=
  Keeps.modify fun s field outside => by
    cases field with
    | forwardSignal => simp at outside
    | objects => exact refl_of Debugger.Toggles s
    | _ => rfl

theorem updateHandler_touches (number : Nat) (f : SyscallHandler → SyscallHandler) :
    Touches F (modify (·.updateHandler number f) : Py K Unit) :=
  Keeps.modify fun s field _ => by
    cases field with
    | objects => exact refl_of Debugger.Toggles s
    | _ => rfl

theorem updateCatcher_touches (number : Nat) (f : SignalCatcher → SignalCatcher) :
    Touches F (modify (·.updateCatcher number f) : Py K Unit) :=
  Keeps.modify fun s field _ => by
    cases field with
    | objects => exact refl_of Debugger.Toggles s
    | _ => rfl

theorem getThreadById_touches (threadId : Int) :
    Touches F (getThreadById threadId : Py K (Option Nat)) :=
  Keeps.get.bind fun _ => Keeps.pure _

theorem findHit_touches (threadId : Int) (thread : ThreadContext) (ip : Nat) :
    Touches F (findHit k threadId thread ip) := by
  refine Keeps.get.bind fun s => ?_
  split
  · exact Keeps.pure _
  · split
    · rename_i bp _
      refine Keeps.bind (Keeps.modify fun t => ?_) fun _ => Keeps.pure _
      have written : Changes Field.same F t
          (t.writeReg thread.registerFile .rip (ip - softwareBreakpointByteSize)) :=
        changes_of_log (.inr rfl) (.inr rfl) rfl
      refine trans_of (Changes Field.same F) written ?_
      exact changes_updateBreakpoint _ bp fun _ => ⟨⟨rfl, rfl, rfl, rfl⟩, .inl ⟨rfl, rfl⟩⟩
    · exact isWatchpointHit_touches threadId

theorem finishStep_touches : Touches {.forwardSignal, .stepping} (finishStep : Py K Unit) := by
  refine Keeps.modify fun s field outside => ?_
  cases field with
  | forwardSignal | stepping => simp at outside
  | objects => split <;> exact refl_of Debugger.Toggles s
  | _ => split <;> rfl

theorem appendSignalToForward_touches (pid : Int) (signum : Nat) :
    Touches {.pending} (appendSignalToForward pid signum : Py K Unit) := by
  refine Keeps.modify fun s field outside => ?_
  cases field with
  | pending => simp at outside
  | objects => split <;> exact refl_of Debugger.Toggles s
  | _ => split <;> rfl

theorem receive_changes (s : Debugger K) (st : ThreadStatus) (thread signum : Nat) :
    Changes Field.same {.threads, .injections} s (s.receive st thread signum) := by
  intro field outside
  cases field with
  | threads | injections => simp at outside
  | identities => exact Debugger.identities_updateThread s thread fun _ => rfl
  | objects => exact refl_of Debugger.Toggles s
  | collected | managed =>
      simp only [Field.same, Same, Debugger.receive]
      split <;> rfl
  | _ => rfl

section Handlers

variable {R : Debugger K → Debugger K → Prop}

/-- The relation holds wherever only the fields in `F` differ. -/
def Ignores (R : Debugger K → Debugger K → Prop) (F : Finset Field) : Prop :=
  ∀ s t, Changes Field.same F s t → R s t

theorem Touches.keeps {p : Py K α} (touches : Touches F p) (ignores : Ignores R F) : Keeps R p :=
  fun s => ignores _ _ (touches s)

theorem Ignores.mono {G : Finset Field} (ignores : Ignores R G) (sub : F ⊆ G) : Ignores R F :=
  fun s t changes => ignores s t (changes.mono sub)

theorem updateHandler_keeps (ignores : Ignores R ∅) (number : Nat)
    (f : SyscallHandler → SyscallHandler) :
    Keeps R (modify (·.updateHandler number f) : Py K Unit) :=
  (updateHandler_touches number f).keeps ignores

theorem stops_keeps (ignores : Ignores R ∅) : Keeps R (modify (·.setResume false) : Py K Unit) :=
  (setResume_touches false).keeps ignores

variable [IsPreorder (Debugger K) R]

theorem creditHit_keeps (ignores : Ignores R {.forwardSignal})
    (calls : ∀ site callback threadId, Keeps R (runCallback u site callback threadId))
    (threadId : Int) (bp : Ref) : Keeps R (creditHit u threadId bp) := by
  refine Keeps.bind (Keeps.modify fun s => ignores _ _ ?_) fun _ => Keeps.get.bind fun s => ?_
  · refine trans_of (Changes Field.same _) (setForwardSignal_touches false s) ?_
    exact changes_updateBreakpoint _ bp fun _ => ⟨⟨rfl, rfl, rfl, rfl⟩, .inl ⟨rfl, rfl⟩⟩
  · split
    · exact calls _ _ _
    · exact (setResume_touches _).keeps ignores

theorem handleBreakpoints_keeps (ignores : Ignores R {.forwardSignal})
    (calls : ∀ site callback threadId, Keeps R (runCallback u site callback threadId))
    (threadId : Int) : Keeps R (handleBreakpoints k u threadId) := by
  refine Keeps.get.bind fun s => ?_
  split
  · refine Keeps.modify fun s => ignores _ _ ?_
    exact trans_of (Changes Field.same _) (setResume_touches false s)
      (setForwardSignal_touches false _)
  · refine ((findHit_touches _ _ _).keeps ignores).bind fun hit => ?_
    split
    · exact creditHit_keeps ignores calls _ _
    · exact Keeps.pure _

/-! What the processing of a system call or of a signal does apart from its calls of functions
of the user: it updates handlers or catchers, and stops the process. -/

theorem manageSyscallOnEnter_keeps
    (updates : ∀ number f, Keeps R (modify (·.updateHandler number f) : Py K Unit))
    (stops : Keeps R (modify (·.setResume false) : Py K Unit))
    (calls : ∀ site callback threadId, Keeps R (runCallback u site callback threadId))
    (thread : ThreadContext) (fuel number : Nat) (hijackedSet : List Nat) :
    Keeps R (manageSyscallOnEnter u thread fuel number hijackedSet) := by
  induction fuel generalizing number hijackedSet with
  | zero => exact Keeps.throw _
  | succ fuel ih =>
      refine Keeps.get.bind fun s => ?_
      split
      · exact Keeps.pure _
      · refine Keeps.bind ?_ fun _ => Keeps.get.bind fun s => Keeps.ite (fun _ => ?_)
          fun _ => Keeps.pure _
        · unfold enterHandler
          split
          · refine (calls _ _ _).bind fun _ => Keeps.get.bind fun s =>
              Keeps.ite (fun _ => updates _ _) fun _ => Keeps.ite (fun _ => Keeps.pure _) fun _ =>
                Keeps.ite (fun _ => updates _ _) fun _ =>
                  Keeps.ite (fun _ => Keeps.throw _) fun _ => ih _ _
          · exact Keeps.ite (fun _ => updates _ _) fun _ => Keeps.pure _
        · exact (updates _ _).bind fun _ => stops

theorem exitHandler_keeps
    (updates : ∀ number f, Keeps R (modify (·.updateHandler number f) : Py K Unit))
    (stops : Keeps R (modify (·.setResume false) : Py K Unit))
    (calls : ∀ site callback threadId, Keeps R (runCallback u site callback threadId))
    (thread : ThreadContext) (number : Nat) (handler : SyscallHandler) :
    Keeps R (exitHandler u thread number handler) := by
  refine (updates _ _).bind fun _ => Keeps.bind ?_ fun _ => (updates _ _).bind fun _ =>
    Keeps.get.bind fun s => Keeps.ite (fun _ => stops) fun _ => Keeps.pure _
  unfold callOnExit
  split
  · exact calls _ _ _
  · exact Keeps.pure _

theorem handleSyscall_keeps
    (updates : ∀ number f, Keeps R (modify (·.updateHandler number f) : Py K Unit))
    (stops : Keeps R (modify (·.setResume false) : Py K Unit))
    (calls : ∀ site callback threadId, Keeps R (runCallback u site callback threadId))
    (threadId : Int) : Keeps R (handleSyscall u threadId) := by
  refine Keeps.get.bind fun s => ?_
  split
  · exact Keeps.pure _
  · dsimp only
    split
    · exact Keeps.pure _
    · exact Keeps.ite (fun _ => exitHandler_keeps updates stops calls _ _ _) fun _ =>
        manageSyscallOnEnter_keeps updates stops calls _ _ _ _

theorem manageCaughtSignal_keeps
    (updates : ∀ number f, Keeps R (modify (·.updateCatcher number f) : Py K Unit))
    (stops : Keeps R (modify (·.setResume false) : Py K Unit))
    (calls : ∀ site callback threadId, Keeps R (runCallback u site callback threadId))
    (thread : Nat) (threadId : Int) (fuel number : Nat) (hijackedSet : List Nat) :
    Keeps R (manageCaughtSignal u thread threadId fuel number hijackedSet) := by
  have named (number : Nat) : Keeps R (resolveSignalName number : Py K Unit) :=
    Keeps.ite (fun _ => Keeps.pure _) fun _ => Keeps.throw _
  induction fuel generalizing number hijackedSet with
  | zero => exact Keeps.throw _
  | succ fuel ih =>
      refine Keeps.get.bind fun s => ?_
      split
      · exact Keeps.pure _
      · refine Keeps.ite (fun _ => Keeps.pure _) fun _ => (updates _ _).bind fun _ =>
          (named _).bind fun _ => ?_
        split
        · exact stops
        · refine (calls _ _ _).bind fun _ => Keeps.get.bind fun s =>
            Keeps.ite (fun _ => Keeps.pure _) fun _ => (named _).bind fun _ => (named _).bind
              fun _ => Keeps.ite (fun _ => Keeps.pure _) fun _ =>
                Keeps.ite (fun _ => Keeps.throw _) fun _ => ih _ _

theorem handleSignal_keeps
    (updates : ∀ number f, Keeps R (modify (·.updateCatcher number f) : Py K Unit))
    (stops : Keeps R (modify (·.setResume false) : Py K Unit))
    (calls : ∀ site callback threadId, Keeps R (runCallback u site callback threadId))
    (thread : Nat) (threadId : Int) : Keeps R (handleSignal u thread threadId) :=
  Keeps.get.bind fun _ => manageCaughtSignal_keeps updates stops calls _ _ _ _ _

theorem handleClone_keeps (ignores : Ignores R ∅)
    (registers : ∀ threadId, Keeps R (registerNewThread k threadId)) (threadId : Int)
    (results : List ThreadStatus) : Keeps R (handleClone k threadId results) := by
  refine Keeps.bind (Keeps.ite (fun _ => Keeps.pure _) fun _ => ?_) fun _ => registers threadId
  exact (osWaitpid_touches _).keeps ignores

theorem handleEvent_keeps (ignores : Ignores R {.forwardSignal})
    (pid : Int) (event : Nat)
    (registers : event = StopEvent.clone.value →
      ∀ threadId, Keeps R (registerNewThread k threadId))
    (results : List ThreadStatus) : Keeps R (handleEvent k pid event results) := by
  refine Keeps.ite (fun clone => Keeps.get.bind fun s => ?_) fun _ =>
    Keeps.ite (fun _ => (setForwardSignal_touches _).keeps ignores) fun _ => Keeps.pure _
  exact (handleClone_keeps (ignores.mono (by decide)) (registers clone) _ _).bind fun _ =>
    (setForwardSignal_touches _).keeps ignores

theorem internalSignalHandler_keeps (ignores : Ignores R {.forwardSignal, .stepping})
    (calls : ∀ site callback threadId, Keeps R (runCallback u site callback threadId))
    (pid : Int) (signum : Nat) (results : List ThreadStatus) (status : Nat)
    (registers : status / 256 = StopEvent.clone.value →
      ∀ threadId, Keeps R (registerNewThread k threadId)) :
    Keeps R (internalSignalHandler k u pid signum results status) := by
  refine Keeps.get.bind fun s => Keeps.ite (fun _ => ?_) fun _ => Keeps.ite (fun _ => ?_) fun _ =>
    Keeps.ite (fun _ => ?_) fun _ => Keeps.pure _
  · exact (handleSyscall_keeps (updateHandler_keeps (ignores.mono (by decide)))
      (stops_keeps (ignores.mono (by decide))) calls _).bind fun _ =>
      (setForwardSignal_touches _).keeps (ignores.mono (by decide))
  · refine Keeps.modify fun s => ignores _ _ fun field outside => ?_
    cases field with
    | forwardSignal => simp at outside
    | objects => exact refl_of Debugger.Toggles s
    | _ => rfl
  · exact (handleBreakpoints_keeps (ignores.mono (by decide)) calls _).bind fun _ =>
      (finishStep_touches.keeps ignores).bind fun _ =>
        handleEvent_keeps (ignores.mono (by decide)) _ _ registers _

theorem handleExit_keeps
    (unregisters : ∀ threadId exitCode exitSignal,
      Keeps R (unregisterThread threadId exitCode exitSignal : Py K Unit))
    (threadId : Int) (exitCode exitSignal : Option Nat) :
    Keeps R (handleExit threadId exitCode exitSignal : Py K Unit) :=
  (Keeps.get.bind fun _ => Keeps.pure _ : Keeps R (getThreadById threadId)).bind fun _ =>
    Keeps.ite (fun _ => unregisters _ _ _) fun _ => Keeps.pure _

end Handlers

/-- What the status handler may touch. -/
def handlerFields : Finset Field :=
  {.nodes, .threads, .identities, .helpers, .injections, .pending, .forwardSignal, .stepping}

theorem handleStop_touches (st : ThreadStatus) (signum : Nat) :
    Touches userFields (handleStop u st signum) := by
  refine (getThreadById_touches _).bind fun t => ?_
  split
  · exact Keeps.pure _
  · refine Keeps.bind (Keeps.modify fun s => ?_) fun _ =>
      Keeps.bind (handleSignal_keeps updateCatcher_touches (setResume_touches _) runCallback_touches
        _ _) fun _ => (appendSignalToForward_touches _ _).mono (by decide)
    exact (receive_changes s st _ signum).mono (by decide)

theorem handleChange_touches (st : ThreadStatus) (results : List ThreadStatus) :
    Touches handlerFields (handleChange k u st results) := by
  have exits (exitCode exitSignal : Option Nat) :
      Touches handlerFields (handleExit st.tid exitCode exitSignal : Py K Unit) :=
    handleExit_keeps (fun _ _ _ => (unregisterThread_touches _ _ _).mono (by decide)) _ _ _
  refine ((setForwardSignal_touches _).mono (by decide)).bind fun _ => Keeps.get.bind fun s =>
    Keeps.ite (fun _ => Keeps.ite (fun _ => Keeps.pure _) fun _ => Keeps.bind ?_ fun _ => ?_)
      fun _ => Keeps.ite (fun _ => exits _ _) fun _ => Keeps.ite (fun _ => exits _ _) fun _ =>
        Keeps.pure _
  · exact internalSignalHandler_keeps (fun _ _ changes => changes.mono (by decide))
      (fun _ _ _ => (runCallback_touches _ _ _).mono (by decide)) _ _ _ _
      fun _ _ => (registerNewThread_touches _).mono (by decide)
  · exact (handleStop_touches st _).mono (by decide)

theorem manageChange_touches (results : List ThreadStatus) :
    Touches handlerFields (manageChange k u results) :=
  Keeps.forM fun st _ => handleChange_touches st results

/-! ### Commands that wait -/

theorem waitResults_touches (fuel : Nat) : Touches {.collected} (waitResults k fuel) := by
  refine Keeps.get_bind fun s => ?_
  have changes := waitAllAndUpdateRegs_changes (k := k) fuel s
  rcases collected : waitAllAndUpdateRegs k fuel s.globalState s.world s.processId with
    ⟨_ | _ | results, g, w⟩ <;> rw [collected] at changes
  · exact refl_of (Changes Field.same _) s
  · exact changes
  · exact changes

/-- Handing statuses over adds to the history what it says and nothing else. -/
theorem noteManaged_log (s : Debugger K) (results : List ThreadStatus) :
    (s.noteManaged results).world.log = results.reverse.map Event.managed ++ s.world.log := by
  simp only [Debugger.noteManaged]
  induction results generalizing s with
  | nil => rfl
  | cons st rest ih =>
      have later := ih { s with world := s.world.record (.managed st) }
      simpa using later

theorem noteManaged_touches (results : List ThreadStatus) :
    Touches {.managed} (modify (·.noteManaged results) : Py K Unit) := by
  refine Keeps.modify fun s field outside => ?_
  cases field with
  | managed => simp at outside
  | collected | injections =>
      simp only [Field.same, Same, noteManaged_log, reapedAt, Cffi.injections,
        List.filterMap_append, List.filterMap_map]
      simp
  | objects => exact refl_of Debugger.Toggles s
  | _ => rfl

/-- What a method that waits may touch. -/
def waitFields : Finset Field :=
  {.nodes, .threads, .identities, .helpers, .injections, .pending, .forwardSignal, .stepping,
    .collected, .managed}

theorem wait_touches (fuel : Nat) : Touches waitFields (wait k u fuel) :=
  ((waitResults_touches fuel).mono (by decide)).bind fun results =>
    ((noteManaged_touches results).mono (by decide)).bind fun _ =>
      (manageChange_touches results).mono (by decide)

theorem finishStepMode_touches (fuel : Nat) (threadId : Int) :
    Touches {.injections} (finishStepMode k fuel threadId) :=
  (touches_callLib (steppingFinish_changes fuel threadId)).bind fun _ => checkLoop_touches _

/-- What a method that creates breakpoints may touch. -/
def breakpointFields : Finset Field := {.table, .helpers, .breakpoints}

theorem prepareFinish_touches (threadId : Int) (returnAddress : Nat) :
    Touches breakpointFields (prepareFinish k threadId returnAddress) := by
  refine Keeps.get.bind fun s => ?_
  split
  · refine Keeps.bind (Keeps.get.bind fun s => Keeps.ite (fun _ => ?_) fun _ => Keeps.pure _)
      fun _ => Keeps.pure _
    exact (enableBreakpoint_touches _).mono (by decide)
  · exact Keeps.bind ((availableBreakpoints_touches _).bind fun _ =>
      (newBreakpoint_touches _).bind fun bp => (setBreakpoint_touches bp _).bind fun _ =>
        Keeps.pure _) fun _ => Keeps.pure _

section Checks

variable {R : Debugger K → Debugger K → Prop} [IsPreorder (Debugger K) R]

theorem ensureAlive_keeps : Keeps R (ensureAlive : Py K Unit) := by
  refine Keeps.get.bind fun s => ?_
  split
  · exact Keeps.throw _
  · exact Keeps.ite (fun _ => Keeps.throw _) fun _ => Keeps.pure _

theorem checkCondition_keeps (hardware : Bool) (condition : Option String) (length : Nat) :
    Keeps R (checkCondition hardware condition length : Py K Unit) := by
  unfold checkCondition
  split
  · exact Keeps.pure _
  · exact Keeps.pure _
  · exact Keeps.ite (fun _ => Keeps.throw _) fun _ => Keeps.ite (fun _ => Keeps.throw _)
      fun _ => Keeps.ite (fun _ => Keeps.throw _) fun _ => Keeps.pure _

end Checks

theorem breakpoint_touches (address : Nat) (symbol : String) (hardware : Bool)
    (condition : Option String) (length : Nat) (callback : Option Callback) :
    Touches breakpointFields
      (breakpoint k address symbol hardware condition length callback) :=
  ensureAlive_keeps.bind fun _ => (checkCondition_keeps _ _ _).bind fun _ =>
    (newBreakpoint_touches _).bind fun bp => (setBreakpoint_touches bp _).bind fun _ =>
      Keeps.get.bind fun _ => Keeps.ite (fun _ => raise_touches _) fun _ => Keeps.pure _

theorem catchSignal_touches (signalNumber : Nat) (callback : Option Callback) (recursive : Bool) :
    Touches F (catchSignal signalNumber callback recursive : Py K Unit) := by
  refine ensureAlive_keeps.bind fun _ => Keeps.bind ?_ fun _ =>
    (resolveSignalName_touches _).bind fun _ => Keeps.modify fun s field _ => ?_
  · exact Keeps.ite (fun _ => raise_touches _) fun _ => Keeps.ite (fun _ => raise_touches _)
      fun _ => Keeps.ite (fun _ => raise_touches _) fun _ => Keeps.pure _
  · cases field with
    | objects => exact refl_of Debugger.Toggles s
    | _ => rfl

theorem putHandler_touches (number : Nat) (onEnter onExit : Option Callback) (recursive : Bool) :
    Touches F (modify (·.putHandler number onEnter onExit recursive) : Py K Unit) := by
  refine Keeps.modify fun s field _ => ?_
  unfold Debugger.putHandler
  split <;>
  · cases field with
    | objects => exact refl_of Debugger.Toggles s
    | _ => rfl

end Libdebug.Ptrace
