import Libdebug.Ptrace.Footprints
import Libdebug.Ptrace.Managers
import Libdebug.Cffi.GhostTraps

/-!
What the methods do to the table of breakpoints and to the text of the tracee, apart from
those that switch breakpoints: the table stays as it is, and a byte of the text stays or
becomes the program's own again.
-/

namespace Libdebug.Ptrace

open Libdebug.Foundation Libdebug.Cffi

variable {K : Type} {k : Kernel K} {u : UserCode K} {own : Memory} {text : Set Nat}

structure TextKept (own : Memory) (text : Set Nat) (s t : Debugger K) : Prop where
  table : t.globalState.bHead = s.globalState.bHead
  bytes : ∀ x ∈ text, t.world.mem x = s.world.mem x ∨ t.world.mem x = own x

instance : IsPreorder (Debugger K) (TextKept own text) where
  refl _ := ⟨rfl, fun _ _ => .inl rfl⟩
  trans _ _ _ first second := ⟨second.table.trans first.table, fun x inText => by
    rcases second.bytes x inText with same | healed
    · rw [same]
      exact first.bytes x inText
    · exact .inr healed⟩

/-- Functions of the user write no other bytes to the text than its own. -/
def SpellsText (own : Memory) (text : Set Nat) (u : UserCode K) : Prop :=
  ∀ callback threadId s address value,
    .pokeMemory address value ∈ (u callback threadId s).1 → Spells own text address value

theorem TextKept.of_same {s t : Debugger K} (table : t.globalState.bHead = s.globalState.bHead)
    (memory : t.world.mem = s.world.mem) : TextKept own text s t :=
  ⟨table, fun _ _ => .inl (by rw [memory])⟩

theorem TextKept.of_performs (keeps : k.KeepsText text) {allowed : Request → Prop}
    {s : Debugger K} {g : GlobalState} {w : World K}
    (performed : Performs k allowed (s.globalState, s.world) (g, w)) :
    TextKept own text s (s.withLib g w) :=
  ⟨performed.bHead, fun x inText => .inl (performed.text keeps x inText)⟩

theorem TextKept.of_onlyManagers {s t : Debugger K} (only : OnlyManagers s t) :
    TextKept own text s t := by
  obtain ⟨os, helpers, rfl⟩ := only
  exact .of_same rfl rfl

theorem modify_textKept {f : Debugger K → Debugger K}
    (table : ∀ s, (f s).globalState.bHead = s.globalState.bHead)
    (memory : ∀ s, (f s).world.mem = s.world.mem) :
    Keeps (TextKept own text) (modify f : Py K Unit) :=
  Keeps.modify fun s => .of_same (table s) (memory s)

theorem raiseErrnoIf_textKept (failed : Prop) [Decidable failed] :
    Keeps (TextKept own text) (raiseErrnoIf k failed) :=
  Keeps.get.bind fun _ => Keeps.ite (fun _ => Keeps.throw _) fun _ => Keeps.pure _

/-! ### Functions of the user -/

theorem perform_textKept (s : Debugger K) (action : Action)
    (spelled : ∀ address value, action = .pokeMemory address value →
      Spells own text address value) : TextKept own text s (s.perform action) := by
  cases action with
  | pokeMemory address value =>
      refine ⟨rfl, fun x inText => ?_⟩
      by_cases covered : Covers address x
      · have written : (s.perform (.pokeMemory address value)).world.mem x =
            byteOf value (x - address) := pokeWord_inside covered
        rw [written]
        exact .inr (spelled address value rfl x inText covered)
      · exact .inl (pokeWord_outside covered)
  | setSignal thread signal =>
      simp only [Debugger.perform, Debugger.setSignal]
      split <;> exact .of_same rfl rfl
  | _ => exact .of_same rfl rfl

theorem performAll_textKept (s : Debugger K) (actions : List Action)
    (spelled : ∀ address value, .pokeMemory address value ∈ actions →
      Spells own text address value) : TextKept own text s (s.performAll actions) := by
  induction actions generalizing s with
  | nil => exact refl_of (TextKept own text) s
  | cons action rest ih =>
      have here := perform_textKept s action fun address value same =>
        spelled address value (same ▸ List.mem_cons_self)
      have later := ih (s.perform action) fun address value member =>
        spelled address value (List.mem_cons_of_mem _ member)
      exact trans_of (TextKept own text) here later

theorem runCallback_textKept (spells : SpellsText own text u) (site : CallSite)
    (callback : Callback) (threadId : Int) :
    Keeps (TextKept own text) (runCallback u site callback threadId) := fun s => by
  rw [stateAfter_runCallback]
  have noted : TextKept own text s (s.noteCall (site, threadId)) := .of_same rfl rfl
  refine trans_of (TextKept own text) noted ?_
  exact performAll_textKept _ _ fun address value => spells _ _ _ address value

/-! ### Threads -/

theorem registerNewThread_textKept (threadId : Int) :
    Keeps (TextKept own text) (registerNewThread k threadId) := by
  refine Keeps.bind (fun s => .of_same ?_ rfl) fun file => Keeps.bind ?_ fun _ =>
    Keeps.get.bind fun s => Keeps.forM fun bp _ t =>
      .of_onlyManagers (installBreakpoint_onlyManagers _ bp t)
  · change (registerThread k s.globalState s.world threadId).2.bHead = s.globalState.bHead
    simp only [registerThread]
    split <;> simp
  · exact modify_textKept (fun _ => rfl) fun _ => rfl

theorem unregisterThread_textKept (threadId : Int) (exitCode exitSignal : Option Nat) :
    Keeps (TextKept own text) (unregisterThread threadId exitCode exitSignal : Py K Unit) := by
  refine Keeps.bind (fun s => .of_same ?_ rfl) fun _ => Keeps.bind (Keeps.modify fun s => ?_)
    fun _ => Keeps.get.bind fun _ => Keeps.ite (fun _ => ?_) fun _ => Keeps.throw _
  · change (Cffi.unregisterThread s.globalState threadId).bHead = s.globalState.bHead
    simp only [Cffi.unregisterThread]
    split <;> rfl
  · unfold Debugger.setThreadAsDead
    split <;> exact .of_same rfl rfl
  · exact modify_textKept (fun _ => rfl) fun _ => rfl

theorem osWaitpid_textKept (keeps : k.KeepsText text) (threadId : Int) :
    Keeps (TextKept own text) (osWaitpid k threadId) := by
  refine Keeps.bind (fun s => ?_) fun _ => raiseErrnoIf_textKept _
  have waited : Performs k (fun r => ∃ target nohang, r = .waitpid .handleClone target nohang)
      (s.globalState, s.world) (s.globalState, _) :=
    Performs.single (.waitpid .handleClone (.thread threadId) false) ⟨_, _, rfl⟩
  exact .of_performs keeps waited

/-! ### The status handler -/

theorem isWatchpointHit_textKept (threadId : Int) :
    Keeps (TextKept own text) (isWatchpointHit k threadId) := by
  refine (getHelper_keeps _).bind fun helper => (peekUser_keeps _ _).bind fun dr6 =>
    Keeps.get.bind fun s => ?_
  split <;> exact Keeps.pure _

theorem findHit_textKept (threadId : Int) (thread : ThreadContext) (ip : Nat) :
    Keeps (TextKept own text) (findHit k threadId thread ip) := by
  refine Keeps.get.bind fun s => ?_
  split
  · exact Keeps.pure _
  · split
    · refine Keeps.bind ?_ fun _ => Keeps.pure _
      exact modify_textKept (fun _ => rfl) fun _ => rfl
    · exact isWatchpointHit_textKept threadId

theorem handleBreakpoints_textKept (spells : SpellsText own text u) (threadId : Int) :
    Keeps (TextKept own text) (handleBreakpoints k u threadId) := by
  refine Keeps.get.bind fun s => ?_
  split
  · exact modify_textKept (fun _ => rfl) fun _ => rfl
  · refine (findHit_textKept _ _ _).bind fun hit => ?_
    split
    · refine Keeps.bind (modify_textKept (fun _ => rfl) fun _ => rfl) fun _ =>
        Keeps.get.bind fun s => ?_
      split
      · exact runCallback_textKept spells _ _ _
      · exact modify_textKept (fun _ => rfl) fun _ => rfl
    · exact Keeps.pure _

theorem handleEvent_textKept (keeps : k.KeepsText text) (pid : Int) (event : Nat)
    (results : List ThreadStatus) :
    Keeps (TextKept own text) (handleEvent k pid event results) := by
  have ignored : Keeps (TextKept own text) (modify (·.setForwardSignal false) : Py K Unit) :=
    modify_textKept (fun _ => rfl) fun _ => rfl
  refine Keeps.ite (fun _ => Keeps.get.bind fun s => Keeps.bind ?_ fun _ => ignored) fun _ =>
    Keeps.ite (fun _ => ignored) fun _ => Keeps.pure _
  refine Keeps.bind (Keeps.ite (fun _ => Keeps.pure _) fun _ => ?_) fun _ =>
    registerNewThread_textKept _
  exact osWaitpid_textKept keeps _

theorem internalSignalHandler_textKept (keeps : k.KeepsText text)
    (spells : SpellsText own text u) (pid : Int) (signum : Nat) (results : List ThreadStatus)
    (status : Nat) :
    Keeps (TextKept own text) (internalSignalHandler k u pid signum results status) := by
  refine Keeps.get.bind fun s => Keeps.ite (fun _ => ?_) fun _ => Keeps.ite (fun _ => ?_) fun _ =>
    Keeps.ite (fun _ => ?_) fun _ => Keeps.pure _
  · have handled : Keeps (TextKept own text) (handleSyscall u pid) :=
      handleSyscall_keeps (fun _ _ => modify_textKept (fun _ => rfl) fun _ => rfl)
        (modify_textKept (fun _ => rfl) fun _ => rfl) (runCallback_textKept spells) pid
    exact handled.bind fun _ => modify_textKept (fun _ => rfl) fun _ => rfl
  · exact modify_textKept (fun _ => rfl) fun _ => rfl
  · have finished : Keeps (TextKept own text) (finishStep : Py K Unit) :=
      Keeps.modify fun s => by split <;> exact .of_same rfl rfl
    exact (handleBreakpoints_textKept spells pid).bind fun _ => finished.bind fun _ =>
      handleEvent_textKept keeps _ _ _

theorem handleStop_textKept (spells : SpellsText own text u) (st : ThreadStatus) (signum : Nat) :
    Keeps (TextKept own text) (handleStop u st signum) := by
  refine Keeps.bind (Keeps.get.bind fun _ => Keeps.pure _) fun thread => ?_
  split
  · exact Keeps.pure _
  · rename_i thread
    have received : Keeps (TextKept own text) (modify (·.receive st thread signum) : Py K Unit) :=
      modify_textKept (fun _ => rfl) fun s => by
        simp only [Debugger.receive]
        split <;> rfl
    have handled : Keeps (TextKept own text) (handleSignal u thread st.tid) :=
      handleSignal_keeps (fun _ _ => modify_textKept (fun _ => rfl) fun _ => rfl)
        (modify_textKept (fun _ => rfl) fun _ => rfl) (runCallback_textKept spells) _ _
    exact received.bind fun _ => handled.bind fun _ => Keeps.modify fun s => by
      split <;> exact .of_same rfl rfl

theorem handleChange_textKept (keeps : k.KeepsText text) (spells : SpellsText own text u)
    (st : ThreadStatus) (results : List ThreadStatus) :
    Keeps (TextKept own text) (handleChange k u st results) := by
  have exits (exitCode exitSignal : Option Nat) :
      Keeps (TextKept own text) (handleExit st.tid exitCode exitSignal : Py K Unit) :=
    handleExit_keeps unregisterThread_textKept _ _ _
  refine Keeps.bind (modify_textKept (fun _ => rfl) fun _ => rfl) fun _ =>
    Keeps.get.bind fun s => Keeps.ite (fun _ => ?_) fun _ =>
      Keeps.ite (fun _ => exits _ _) fun _ => Keeps.ite (fun _ => exits _ _) fun _ => Keeps.pure _
  refine Keeps.ite (fun _ => Keeps.pure _) fun _ => ?_
  exact (internalSignalHandler_textKept keeps spells _ _ _ _).bind fun _ =>
    handleStop_textKept spells _ _

theorem manageChange_textKept (keeps : k.KeepsText text) (spells : SpellsText own text u)
    (results : List ThreadStatus) : Keeps (TextKept own text) (manageChange k u results) :=
  Keeps.forM fun st _ => handleChange_textKept keeps spells st results

theorem noteManaged_textKept (results : List ThreadStatus) :
    Keeps (TextKept own text) (modify (·.noteManaged results) : Py K Unit) := by
  refine modify_textKept (fun _ => rfl) fun s => ?_
  simp only [Debugger.noteManaged]
  induction results generalizing s with
  | nil => rfl
  | cons st rest ih => exact ih { s with world := s.world.record (.managed st) }

/-! ### Commands that neither switch breakpoints nor wait -/

theorem forwardSignals_textKept : Keeps (TextKept own text) (forwardSignals : Py K Unit) := by
  refine Keeps.get.bind fun s => Keeps.ite (fun _ => ?_) fun _ => Keeps.pure _
  refine Keeps.get.bind fun t => Keeps.bind (Keeps.forM fun node _ => ?_) fun _ =>
    modify_textKept (fun _ => rfl) fun _ => rfl
  refine Keeps.get.bind fun s => Keeps.ite (fun _ => ?_) fun _ => Keeps.pure _
  split
  · exact Keeps.throw _
  · exact Keeps.ite (fun _ => modify_textKept (fun _ => rfl) fun _ => rfl) fun _ => Keeps.pure _

theorem collectChanged_textKept (bps : List Ref) :
    Keeps (TextKept own text) (collectChanged bps : Py K (List Ref)) := by
  induction bps with
  | nil => exact Keeps.pure _
  | cons bp rest ih =>
      refine Keeps.get.bind fun s => Keeps.bind ?_ fun _ => ih.bind fun _ => Keeps.pure _
      exact modify_textKept (fun _ => rfl) fun _ => rfl

theorem disableForStep_textKept : Keeps (TextKept own text) (disableForStep : Py K Unit) :=
  Keeps.get.bind fun _ => Keeps.forM fun _ _ => modify_textKept (fun _ => rfl) fun _ => rfl

theorem checkLoop_textKept (result : Option Int) :
    Keeps (TextKept own text) (checkLoop k result) := by
  unfold checkLoop
  split
  · exact Keeps.throw _
  · exact raiseErrnoIf_textKept _

theorem step_textKept (keeps : k.KeepsText text) (threadId : Int) :
    Keeps (TextKept own text) (step k threadId) := by
  refine disableForStep_textKept.bind fun _ => Keeps.bind (fun s => ?_) fun _ =>
    (raiseErrnoIf_textKept _).bind fun _ => modify_textKept (fun _ => rfl) fun _ => rfl
  obtain ⟨signal, w, stepped, performed⟩ := singlestep_spec (k := k) s.globalState s.world threadId
  change TextKept own text s (s.withLib (singlestep k s.globalState s.world threadId).2.1
    (singlestep k s.globalState s.world threadId).2.2)
  rw [stepped]
  refine trans_of (TextKept own text) (.of_performs keeps performed) ?_
  exact .of_same rfl rfl

theorem stepUntil_textKept (keeps : k.KeepsText text) (fuel : Nat) (threadId : Int)
    (address : Nat) (maxSteps : Int) :
    Keeps (TextKept own text) (stepUntil k fuel threadId address maxSteps) :=
  disableForStep_textKept.bind fun _ => Keeps.bind
    (fun s => .of_performs keeps (stepUntil_performs fuel s.globalState s.world threadId address
      maxSteps)) fun _ => checkLoop_textKept _

theorem catchSignal_textKept (signalNumber : Nat) (callback : Option Callback)
    (recursive : Bool) :
    Keeps (TextKept own text) (catchSignal signalNumber callback recursive : Py K Unit) := by
  refine ensureAlive_keeps.bind fun _ => Keeps.bind ?_ fun _ => Keeps.bind ?_ fun _ =>
    modify_textKept (fun _ => rfl) fun _ => rfl
  · exact Keeps.ite (fun _ => Keeps.throw _) fun _ => Keeps.ite (fun _ => Keeps.throw _)
      fun _ => Keeps.ite (fun _ => Keeps.throw _) fun _ => Keeps.pure _
  · exact Keeps.ite (fun _ => Keeps.pure _) fun _ => Keeps.throw _

theorem putHandler_textKept (number : Nat) (onEnter onExit : Option Callback)
    (recursive : Bool) : Keeps (TextKept own text)
      (modify (·.putHandler number onEnter onExit recursive) : Py K Unit) :=
  Keeps.modify fun s => by
    unfold Debugger.putHandler
    split <;> exact .of_same rfl rfl

end Libdebug.Ptrace
