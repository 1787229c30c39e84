import Libdebug.Ptrace.Tables
import Libdebug.Ptrace.TextFrames

/-!
`detach`, and the trap bytes that it leaves to the released process.

Breakpoints are taken off the tables before the threads are released, but no memory is
written: it is as clean afterwards as it was before. A trap is in memory from the creation
of a breakpoint or from a resume on, until a wait that reports statuses, or the end of a
`finish` by steps, takes it out.
-/

namespace Libdebug.Ptrace

open Libdebug.Foundation Libdebug.Cffi

def SIGCONT : Nat := 18

/-- The requests that let the tracee go. -/
structure Release (K : Type) where
  /-- `PTRACE_DETACH`; that it failed is only printed -/
  detach : Memory → K → Int → Memory × K
  kill : Memory → K → Int → Nat → Memory × K

/-- What is released leaves the bytes of the text alone. -/
structure Release.KeepsText {K : Type} (r : Release K) (text : Set Nat) : Prop where
  detach : ∀ mem os tid, ∀ x ∈ text, (r.detach mem os tid).1 x = mem x
  kill : ∀ mem os pid signal, ∀ x ∈ text, (r.kill mem os pid signal).1 x = mem x

variable {K : Type} (k : Kernel K) (r : Release K) (u : UserCode K)

/-! ### The C layer -/

/-- The registers of a thread are set; one that still runs is stopped for it. -/
def setregsStopped (pid : Int) (t : Thread) (regs : UserRegs) (w : World K) : World K :=
  match k.setregs w.os t.tid regs with
  | some os => { w with os }
  | none =>
      let w := w.tgkill k pid t.tid SIGSTOP
      -- the status is not looked at
      let (_, mem, os) := k.waitpid w.mem w.os (.thread t.tid) false
      ({ w with mem, os } : World K).setregs k t.tid regs

/-- The body of the loop of `ptrace_detach_for_migration` -/
def detachThread (g : GlobalState) (pid : Int) (w : World K) (t : Thread) : World K :=
  let w := setregsStopped k pid t (g.files t.regs) w
  let w := w.tgkill k pid t.tid SIGSTOP
  let (mem, os) := r.detach w.mem w.os t.tid
  { w with mem, os }

def ptraceDetachForMigration (g : GlobalState) (w : World K) (pid : Int) : World K :=
  g.tHead.foldl (detachThread k r g pid) w

def ptraceDetachAndCont (g : GlobalState) (w : World K) (pid : Int) : World K :=
  let w := ptraceDetachForMigration k r g w pid
  let (mem, os) := r.kill w.mem w.os pid SIGCONT
  { w with mem, os }

/-! ### The method -/

/-- The body of the loop of `detach` -/
def disableForDetach (bp : Ref) : Py K Unit := do
  let s ← get
  if (s.objects bp).enabled then unsetBreakpoint k bp true

/-- The loop is over a copy of the values. -/
def detach : Py K Unit := do
  let s ← get
  s.breakpoints.values.forM (disableForDetach k)
  callLib fun g w => ((), g, ptraceDetachAndCont k r g w s.processId)

/-! ### Traps that may be in memory -/

/-- The first `waitpid` of `wait_all_and_update_regs` fails: nothing is restored. -/
def Debugger.WaitFails (s : Debugger K) (fuel : Nat) : Prop :=
  ∃ g w, waitAllAndUpdateRegs k fuel s.globalState s.world s.processId = (.null, g, w)

/-- Breakpoints have been restored by the command, and not armed since. -/
def restoredBy (s next : Debugger K) : Command → Bool
  | .setupParent _ | .wait _ => collected next.world.log ≠ collected s.world.log
  | .finish fuel threadId heuristic _ =>
      if heuristic = "step-mode" then Returns (finishStepMode k fuel threadId) (fun _ _ => True) s
      else collected next.world.log ≠ collected s.world.log
  | _ => false

/-- A breakpoint has been armed by the command, or may have been. -/
def armedBy (s next : Debugger K) : Command → Bool
  | .breakpoint _ _ hardware _ _ _ => !hardware && next.nextRef ≠ s.nextRef
  | .cont | .finish .. => next.globalState.enabledAddrs ≠ []
  | _ => false

/-- Sessions, with a flag: a trap may be in memory since the breakpoints were last restored. -/
def arming : Machine (Debugger K × Bool) Command where
  step s command := (s.1.command k u command).map fun next =>
    (next, (s.2 || armedBy s.1 next command) && !restoredBy k s.1 next command)

/-- The calls of the C layer see the debugger so. -/
def Debugger.session (s : Debugger K) : Session K :=
  ⟨s.globalState, s.world, s.globalState.enabledAddrs⟩

/-- A breakpoint that is registered saves no trap byte of another one, the user writes no
other bytes to the text than its own, and `finish` deletes the breakpoint that it has set
only after a wait that reported something. -/
def CleanCommand (own : Memory) (text : Set Nat) (s : Debugger K) : Command → Prop
  | .act (.pokeMemory address value) => Spells own text address value
  | .breakpoint address _ hardware condition length _ =>
      hardware = false →
        Returning (ensureAlive >>= fun _ => checkCondition hardware condition length)
          (fun _ _ => CleanCall own text s.session (.registerBreakpoint address)) s
  | .finish fuel threadId heuristic (some returnAddress) =>
      heuristic = "backtrace" →
        Returning (availableBreakpoints threadId) (fun available _ => available = 0 →
          (∀ bp ∈ s.breakpoints.values, (s.objects bp).address ≠ returnAddress) →
            CleanCall own text s.session (.registerBreakpoint returnAddress)) s ∧
        Returning (prepareFinish k threadId returnAddress) (fun prepared t =>
          prepared.2 = false →
            Returning (cont k) (fun _ t => ¬ t.WaitFails k fuel) t) s
  | _ => True

variable {k r u} {own : Memory} {text : Set Nat} {s t : Debugger K} {bp : Ref}

/-! ### The invariant -/

def Debugger.Pristine (own : Memory) (text : Set Nat) (s : Debugger K) : Prop :=
  ∀ x ∈ text, s.world.mem x = own x

abbrev Debugger.Clean (own : Memory) (text : Set Nat) (s : Debugger K) : Prop :=
  s.session.Clean own text

namespace Debugger.Clean

/-- Of the addresses noted as planted only those matter that are switched on. -/
theorem of_planted {planted : List Nat}
    (clean : Session.Clean own text ⟨s.globalState, s.world, planted⟩) : s.Clean own text where
  words := clean.words
  bytes x inText := (clean.bytes x inText).imp_right fun ⟨_, on⟩ => ⟨on, on⟩

theorem of_kept (clean : s.Clean own text) (kept : TextKept own text s t) :
    t.Clean own text where
  words := by
    have table : t.session.g.bHead = s.session.g.bHead := kept.table
    rw [table]
    exact clean.words
  bytes x inText := by
    rcases kept.bytes x inText with same | healed
    · have table : t.globalState.enabledAddrs = s.globalState.enabledAddrs :=
        enabledAddrs_congr kept.table
      simp only [Debugger.session, same, table]
      exact clean.bytes x inText
    · exact .inl healed

/-- With every breakpoint switched off the text is the program's own. -/
theorem pristine (clean : s.Clean own text) (off : s.globalState.enabledAddrs = []) :
    s.Pristine own text := by
  intro x inText
  refine (clean.bytes x inText).resolve_right ?_
  rintro ⟨-, on⟩
  have inTable : x ∈ s.globalState.enabledAddrs := on
  rw [off] at inTable
  exact List.not_mem_nil inTable

end Debugger.Clean

theorem Debugger.Pristine.of_kept (pristine : s.Pristine own text)
    (kept : TextKept own text s t) : t.Pristine own text := by
  intro x inText
  rcases kept.bytes x inText with same | healed
  · rw [same]
    exact pristine x inText
  · exact healed

/-! ### Switching breakpoints -/

theorem enableBreakpoint_clean (bp : Ref) :
    Maintains (Debugger.Clean own text) (enableBreakpoint bp : Py K Unit) := by
  intro s clean
  rw [enableBreakpoint, stateAfter_get_bind, callLib?, stateAfter_get_bind]
  split
  · rename_i g w switched
    rw [stateAfter_modify]
    rcases enableBreakpoint_cases switched with ⟨-, rfl, rfl⟩ | ⟨b, found, rfl, rfl⟩
    · exact clean
    · exact .of_planted (Session.Clean.enableBreakpoint clean found)
  · exact clean

theorem disableBreakpoint_clean (bp : Ref) :
    Maintains (Debugger.Clean own text) (disableBreakpoint bp : Py K Unit) := by
  intro s clean
  rw [disableBreakpoint, stateAfter_get_bind, callLib?, stateAfter_get_bind]
  split
  · rename_i g w switched
    rw [stateAfter_modify]
    rcases disableBreakpoint_cases switched with ⟨-, rfl, rfl⟩ | ⟨b, found, rfl, rfl⟩
    · exact clean
    · exact .of_planted (Session.Clean.disableBreakpoint clean found)
  · exact clean

theorem applyChange_clean (bp : Ref) : Maintains (Debugger.Clean own text) (applyChange k bp) := by
  intro s clean
  rw [applyChange, stateAfter_get_bind]
  have managed {t : Debugger K} (only : OnlyManagers s t) : t.Clean own text :=
    clean.of_kept (.of_onlyManagers only)
  split
  · have placed : (stateAfter (placeBreakpoint k bp false) s).Clean own text := by
      by_cases hardware : (s.objects bp).hardware = true
      · exact managed (placeBreakpoint_onlyManagers hardware false)
      · rw [placeBreakpoint, stateAfter_get_bind, if_neg hardware, if_neg Bool.false_ne_true]
        exact enableBreakpoint_clean bp s clean
    exact stateAfter_bind (fun e t raised => stateAfter_of_error raised ▸ placed)
      fun _ t returned => stateAfter_of_ok returned ▸ placed
  · have displaced : (stateAfter (displaceBreakpoint k bp false) s).Clean own text := by
      by_cases hardware : (s.objects bp).hardware = true
      · exact managed (displaceBreakpoint_onlyManagers hardware false)
      · rw [displaceBreakpoint, stateAfter_get_bind, if_neg hardware, if_neg Bool.false_ne_true]
        exact disableBreakpoint_clean bp s clean
    exact stateAfter_bind (fun e t raised => stateAfter_of_error raised ▸ displaced)
      fun _ t returned => stateAfter_of_ok returned ▸ displaced

theorem maintains_clean {α : Type} {p : Py K α} (kept : Keeps (TextKept own text) p) :
    Maintains (Debugger.Clean own text) p := fun s clean => clean.of_kept (kept s)

theorem cont_clean (keeps : k.KeepsText text) : Maintains (Debugger.Clean own text) (cont k) := by
  have applied : Maintains (Debugger.Clean own text) (applyChanges k) :=
    Keeps.get.bind fun s => (maintains_clean (collectChanged_textKept _)).bind fun _ =>
      Keeps.forM fun bp _ => applyChange_clean bp
  refine (maintains_clean forwardSignals_textKept).bind fun _ => applied.bind fun _ =>
    Keeps.bind (Keeps.modify fun s clean => clean.of_kept (.of_same rfl rfl)) fun _ =>
      Keeps.bind (Keeps.modify fun s clean => clean.of_kept (.of_same rfl rfl)) fun _ =>
        Keeps.bind (fun s clean => ?_) fun _ => maintains_clean (raiseErrnoIf_textKept _)
  have resumed : s.session.call k 0 .contAllAndSetBps = some _ := rfl
  have careful : CleanCall own text s.session .contAllAndSetBps := trivial
  exact .of_planted (Session.Clean.call keeps clean careful resumed)

/-! ### Creating breakpoints -/

/-- A breakpoint that is inserted captures no trap. -/
abbrev CapturesNone (own : Memory) (text : Set Nat) (s : Debugger K) (address : Nat) : Prop :=
  CleanCall own text s.session (.registerBreakpoint address)

theorem setBreakpoint_clean (bp : Ref) (clean : s.Clean own text)
    (careful : (s.objects bp).hardware = false → CapturesNone own text s (s.objects bp).address) :
    (stateAfter (setBreakpoint k bp true) s).Clean own text := by
  have placed : (stateAfter (placeBreakpoint k bp true) s).Clean own text := by
    by_cases hardware : (s.objects bp).hardware = true
    · exact clean.of_kept (.of_onlyManagers (placeBreakpoint_onlyManagers hardware true))
    · rw [placeBreakpoint, stateAfter_get_bind, if_neg hardware, if_pos rfl]
      exact .of_planted (Session.Clean.registerBreakpoint clean
        (careful (Bool.eq_false_of_not_eq_true hardware)))
  refine stateAfter_bind (fun e t raised => stateAfter_of_error raised ▸ placed)
    fun _ t returned => ?_
  rw [stateAfter_of_ok returned] at placed
  exact placed.of_kept (.of_same rfl rfl)

/-- A hardware breakpoint leaves the text alone. -/
theorem setBreakpoint_textKept (bp : Ref) (hardware : (s.objects bp).hardware = true)
    (insert : Bool) : TextKept own text s (stateAfter (setBreakpoint k bp insert) s) := by
  have placed : TextKept own text s (stateAfter (placeBreakpoint k bp insert) s) :=
    .of_onlyManagers (placeBreakpoint_onlyManagers hardware insert)
  refine stateAfter_bind (fun e t raised => stateAfter_of_error raised ▸ placed)
    fun _ t returned => ?_
  rw [stateAfter_of_ok returned] at placed
  refine trans_of (TextKept own text) placed ?_
  split <;> exact .of_same rfl rfl

theorem newBreakpoint_textKept (object : Breakpoint) :
    Keeps (TextKept own text) (newBreakpoint object : Py K Ref) := fun _ => .of_same rfl rfl

/-- The checks that come before a breakpoint is made. -/
theorem checks_keep {R : Debugger K → Debugger K → Prop} [IsPreorder (Debugger K) R]
    (hardware : Bool) (condition : Option String) (length : Nat) :
    Keeps R (ensureAlive >>= fun _ => checkCondition hardware condition length : Py K Unit) :=
  ensureAlive_keeps.bind fun _ => checkCondition_keeps _ _ _

/-- What follows the checks of `breakpoint` -/
def makeBreakpoint (k : Kernel K) (object : Breakpoint) : Py K Unit := do
  let bp ← newBreakpoint object
  setBreakpoint k bp true
  confirmInserted object.address

theorem makeBreakpoint_clean (clean : s.Clean own text) (object : Breakpoint)
    (careful : object.hardware = false → CapturesNone own text s object.address) :
    (stateAfter (makeBreakpoint k object) s).Clean own text := by
  rw [makeBreakpoint, stateAfter_bind_ok (run_newBreakpoint object s)]
  have made : (stateAfter (newBreakpoint object) s).Clean own text :=
    clean.of_kept (newBreakpoint_textKept object s)
  have set := setBreakpoint_clean (k := k) s.nextRef made
    (by rw [newBreakpoint_object]; exact careful)
  refine stateAfter_bind (fun e t raised => stateAfter_of_error raised ▸ set) fun _ t returned => ?_
  rw [stateAfter_of_ok returned] at set
  rw [confirmInserted, stateAfter_get_bind]
  split <;> exact set

theorem makeBreakpoint_textKept (object : Breakpoint) (hardware : object.hardware = true) :
    TextKept own text s (stateAfter (makeBreakpoint k object) s) := by
  rw [makeBreakpoint, stateAfter_bind_ok (run_newBreakpoint object s)]
  have set : TextKept own text (stateAfter (newBreakpoint object) s) _ :=
    setBreakpoint_textKept (k := k) s.nextRef (by rw [newBreakpoint_object]; exact hardware) true
  refine trans_of (TextKept own text) (newBreakpoint_textKept object s) ?_
  refine stateAfter_bind (fun e t raised => stateAfter_of_error raised ▸ set) fun _ t returned => ?_
  rw [stateAfter_of_ok returned] at set
  rw [confirmInserted, stateAfter_get_bind]
  split <;> exact set

/-- It has made an object, whether it returns or raises. -/
theorem makeBreakpoint_nextRef (object : Breakpoint) :
    s.nextRef < (stateAfter (makeBreakpoint k object) s).nextRef := by
  have inserts : Touches breakpointFields (do
      setBreakpoint k s.nextRef true
      confirmInserted object.address) :=
    (setBreakpoint_touches _ _).bind fun _ =>
      Keeps.get.bind fun _ => Keeps.ite (fun _ => raise_touches _) fun _ => Keeps.pure _
  rw [makeBreakpoint, stateAfter_bind_ok (run_newBreakpoint object s)]
  have toggles : Debugger.Toggles _ _ :=
    inserts (stateAfter (newBreakpoint object) s) .objects (by decide)
  exact toggles.1

theorem breakpoint_eq (address : Nat) (symbol : String) (hardware : Bool)
    (condition : Option String) (length : Nat) (callback : Option Callback) :
    breakpoint k address symbol hardware condition length callback =
      (ensureAlive >>= fun _ => checkCondition hardware condition length) >>= fun _ =>
        makeBreakpoint k
          { address, symbol, hardware, callback, length,
            condition :=
              if hardware ∧ (condition = none ∨ condition = some "") then some "x"
              else condition } := by
  rw [bind_assoc]
  rfl

/-! ### Waiting -/

/-- What a method that waits does to the text: where statuses are collected the text is
the program's own afterwards. -/
structure Restores (own : Memory) (text : Set Nat) (s t : Debugger K) : Prop where
  clean : s.Clean own text → t.Clean own text
  pristine : s.Clean own text → s.Pristine own text → t.Pristine own text
  restored : s.Clean own text → collected t.world.log ≠ collected s.world.log →
    t.Pristine own text

instance : IsPreorder (Debugger K) (Restores own text) where
  refl _ := ⟨id, fun _ => id, fun _ changed => absurd rfl changed⟩
  trans s t r first second := by
    refine ⟨second.clean ∘ first.clean, fun clean pristine =>
      second.pristine (first.clean clean) (first.pristine clean pristine), fun clean changed => ?_⟩
    by_cases later : collected r.world.log = collected t.world.log
    · rw [later] at changed
      exact second.pristine (first.clean clean) (first.restored clean changed)
    · exact second.restored (first.clean clean) later

theorem Restores.of_kept (kept : TextKept own text s t)
    (same : collected t.world.log = collected s.world.log) : Restores own text s t :=
  ⟨fun clean => clean.of_kept kept, fun _ pristine => pristine.of_kept kept,
    fun _ changed => absurd same changed⟩

theorem keeps_restores {α : Type} {F : Finset Field} {p : Py K α}
    (kept : Keeps (TextKept own text) p) (touches : Touches F p) (apart : .collected ∉ F) :
    Keeps (Restores own text) p :=
  fun s => .of_kept (kept s) (touches s .collected apart)

theorem waitResults_restores (keeps : k.KeepsText text) (fuel : Nat) :
    Keeps (Restores own text) (waitResults k fuel) := by
  refine Keeps.get_bind fun s => ?_
  obtain ⟨g, w, performed, ended⟩ :=
    waitAllAndUpdateRegs_spec (k := k) fuel s.globalState s.world s.processId
  have waited : TextKept own text s (s.withLib g w) := .of_performs keeps performed
  rcases ended with polling | null | ⟨list, done⟩
  · simp only [polling]
    exact refl_of (Restores own text) s
  · simp only [null]
    exact .of_kept waited (waitAllAndUpdateRegs_null fuel _ _ _ null)
  · simp only [done]
    have restored (clean : s.Clean own text) :
        (s.withLib g (restoreBreakpoints g w)).Pristine own text :=
      Session.Clean.restore (clean.of_kept waited)
    exact ⟨fun clean => ⟨(clean.of_kept waited).words, fun x inText =>
      .inl (restored clean x inText)⟩, fun clean _ => restored clean, fun clean _ => restored clean⟩

theorem wait_restores (keeps : k.KeepsText text) (spells : SpellsText own text u) (fuel : Nat) :
    Keeps (Restores own text) (wait k u fuel) :=
  (waitResults_restores keeps fuel).bind fun results =>
    (keeps_restores (noteManaged_textKept results) (noteManaged_touches results)
      (by decide)).bind fun _ =>
        keeps_restores (manageChange_textKept keeps spells results) (manageChange_touches results)
          (by decide)

/-- A wait that returns has collected something, unless its first `waitpid` failed. -/
theorem wait_collects {fuel : Nat} (succeeds : ¬ s.WaitFails k fuel)
    (returned : (wait k u fuel).run s = .ok () t) :
    collected t.world.log ≠ collected s.world.log := by
  obtain ⟨results, waited, collects, returned⟩ := ok_of_bind returned
  have handled : Touches (insert .managed handlerFields) (do
      modify (·.noteManaged results)
      manageChange k u results) :=
    ((noteManaged_touches results).mono (by decide)).bind fun _ =>
      (manageChange_touches results).mono (by decide)
  have same : collected t.world.log = collected waited.world.log :=
    handled.of_ok returned .collected (by decide)
  rw [same]
  obtain ⟨_, _, read, collects⟩ := ok_of_bind collects
  cases read
  rcases ended : waitAllAndUpdateRegs k fuel s.globalState s.world s.processId with
    ⟨_ | _ | list, g, w⟩ <;> rw [ended] at collects
  · cases collects
  · exact absurd ⟨g, w, ended⟩ succeeds
  · cases collects
    exact fun unchanged => (waitAllAndUpdateRegs_grows fuel _ _ _ ended).ne' (congrArg _ unchanged)

/-! ### `finish` -/

/-- The end of a `finish` by steps restores the breakpoints. -/
theorem finishStepMode_clean (keeps : k.KeepsText text) (fuel : Nat) (threadId : Int)
    (clean : s.Clean own text) :
    (stateAfter (finishStepMode k fuel threadId) s).Clean own text ∧
      Returning (finishStepMode k fuel threadId) (fun _ t => t.Pristine own text) s := by
  obtain ⟨g, w, performed, ended⟩ :=
    steppingFinish_spec (k := k) fuel s.globalState s.world threadId
  have prepared := Session.Clean.prepare keeps clean
  have stepped : Session.Clean own text ⟨g, w, s.globalState.enabledAddrs ++ _⟩ :=
    prepared.frame performed.bHead (performed.text keeps) (List.Subset.refl _)
  have halted : (s.withLib g w).Clean own text := .of_planted stepped
  have called : (finishStepMode k fuel threadId).run s =
      (checkLoop k (steppingFinish k fuel s.globalState s.world threadId).1).run
        (s.withLib (steppingFinish k fuel s.globalState s.world threadId).2.1
          (steppingFinish k fuel s.globalState s.world threadId).2.2) := rfl
  rcases ended with looping | failed | done
  · rw [looping] at called
    refine ⟨stateAfter_of_error called ▸ halted, fun _ t returned => ?_⟩
    cases called.symm.trans returned
  · rw [failed] at called
    refine ⟨stateAfter_of_error called ▸ halted, fun _ t returned => ?_⟩
    cases called.symm.trans returned
  · rw [done] at called
    have restored : (s.withLib g (restoreBreakpoints g w)).Pristine own text := stepped.restore
    refine ⟨?_, fun _ t returned => ?_⟩
    · rw [stateAfter_of_ok called]
      exact ⟨halted.words, fun x inText => .inl (restored x inText)⟩
    · cases called.symm.trans returned
      exact restored

/-- Deleting a breakpoint takes it off the tables and writes no memory. -/
theorem displaceBreakpoint_delete (bp : Ref) (s : Debugger K) :
    (stateAfter (displaceBreakpoint k bp true) s).world.mem = s.world.mem ∧
      (stateAfter (displaceBreakpoint k bp true) s).globalState.bHead ⊆ s.globalState.bHead := by
  by_cases hardware : (s.objects bp).hardware = true
  · obtain ⟨os, helpers, only⟩ := displaceBreakpoint_onlyManagers (k := k) hardware true
    rw [only]
    exact ⟨rfl, List.Subset.refl _⟩
  · rw [displaceBreakpoint, stateAfter_get_bind, if_neg hardware, if_pos rfl]
    exact ⟨rfl, (removeEntry_sublist _ _).subset⟩

theorem unsetBreakpoint_memory (bp : Ref) : Leaves (·.world.mem) (unsetBreakpoint k bp true) :=
  Keeps.bind (fun s => (displaceBreakpoint_delete bp s).1) fun _ =>
    Keeps.get.bind fun _ => Keeps.ite (fun _ => Keeps.modify fun _ => rfl) fun _ => Keeps.throw _

theorem unsetBreakpoint_table (bp : Ref) (s : Debugger K) :
    (stateAfter (unsetBreakpoint k bp true) s).globalState.bHead ⊆ s.globalState.bHead := by
  have deleted : Leaves (·.globalState.bHead) (deleteBreakpoint bp : Py K Unit) :=
    Keeps.get.bind fun s => Keeps.ite (fun _ => Keeps.modify fun _ => rfl) fun _ => Keeps.throw _
  have displaced := (displaceBreakpoint_delete (k := k) bp s).2
  refine stateAfter_bind (motive := fun t => t.globalState.bHead ⊆ s.globalState.bHead)
    (fun e t raised => stateAfter_of_error raised ▸ displaced) fun _ t returned => ?_
  rw [stateAfter_of_ok returned] at displaced
  have same : (stateAfter (deleteBreakpoint bp) t).globalState.bHead = t.globalState.bHead :=
    deleted t
  exact same ▸ displaced

theorem Debugger.Clean.unset (bp : Ref) (clean : s.Clean own text)
    (pristine : s.Pristine own text) :
    (stateAfter (unsetBreakpoint k bp true) s).Clean own text ∧
      (stateAfter (unsetBreakpoint k bp true) s).Pristine own text := by
  have memory : (stateAfter (unsetBreakpoint k bp true) s).world.mem = s.world.mem :=
    unsetBreakpoint_memory bp s
  have still : (stateAfter (unsetBreakpoint k bp true) s).Pristine own text := by
    intro x inText
    rw [memory]
    exact pristine x inText
  exact ⟨⟨fun b member => clean.words b (unsetBreakpoint_table bp s member),
    fun x inText => .inl (still x inText)⟩, still⟩

theorem prepareFinish_clean (clean : s.Clean own text) {threadId : Int} {returnAddress : Nat}
    (careful : Returning (availableBreakpoints threadId) (fun available _ => available = 0 →
      (∀ bp ∈ s.breakpoints.values, (s.objects bp).address ≠ returnAddress) →
        CapturesNone own text s returnAddress) s) :
    (stateAfter (prepareFinish k threadId returnAddress) s).Clean own text := by
  rw [prepareFinish, stateAfter_get_bind]
  split
  · have reused (bp : Ref) : Maintains (Debugger.Clean own text)
        (reuseBreakpoint bp >>= fun _ => pure (bp, true) : Py K (Ref × Bool)) :=
      Keeps.bind (Keeps.get.bind fun s =>
        Keeps.ite (fun _ => enableBreakpoint_clean bp) fun _ => Keeps.pure _) fun _ => Keeps.pure _
    exact reused _ s clean
  · rename_i absent
    have nobody : ∀ bp ∈ s.breakpoints.values, (s.objects bp).address ≠ returnAddress := by
      simpa using absent
    have set : (stateAfter (setReturnBreakpoint k threadId returnAddress) s).Clean own text := by
      refine stateAfter_bind (fun e t raised => ?_) fun available t returned => ?_
      · exact stateAfter_of_error raised ▸ maintains_clean
          ((getHelper_keeps _).bind fun _ => Keeps.pure _) s clean
      · obtain rfl := availableBreakpoints_ok returned
        rw [stateAfter_bind_ok (run_newBreakpoint _ s)]
        have made := clean.of_kept (newBreakpoint_textKept
          { address := returnAddress, hardware := available > 0 } s)
        have set := setBreakpoint_clean (k := k) s.nextRef made fun software => ?_
        · exact stateAfter_bind (fun e t raised => stateAfter_of_error raised ▸ set)
            fun _ t returned => stateAfter_of_ok returned ▸ set
        · rw [newBreakpoint_object] at software ⊢
          exact careful available s returned (by simpa using software) nobody
    exact stateAfter_bind (fun e t raised => stateAfter_of_error raised ▸ set)
      fun bp t returned => stateAfter_of_ok returned ▸ set

/-- The text after a method: clean, and the program's own if statuses have been collected. -/
def CleanSince (own : Memory) (text : Set Nat) (s t : Debugger K) : Prop :=
  t.Clean own text ∧ (collected t.world.log ≠ collected s.world.log → t.Pristine own text)

theorem finishBacktrace_clean (keeps : k.KeepsText text) (spells : SpellsText own text u)
    (clean : s.Clean own text) {fuel : Nat} {threadId : Int} {returnAddress : Nat}
    (careful : CleanCommand k own text s
      (.finish fuel threadId "backtrace" (some returnAddress))) :
    CleanSince own text s
      (stateAfter (finishBacktrace k u fuel threadId returnAddress) s) := by
  obtain ⟨captures, waits⟩ := careful rfl
  have prepared := prepareFinish_clean (k := k) clean captures
  have unwaited := prepareFinish_touches (k := k) threadId returnAddress
  refine stateAfter_bind (fun e t raised => ?_) fun ⟨bp, wasFound⟩ t returned => ?_
  · rw [stateAfter_of_error raised] at prepared
    have same : collected t.world.log = collected s.world.log :=
      unwaited.of_error raised .collected (by decide)
    exact ⟨prepared, fun changed => absurd same changed⟩
  · rw [stateAfter_of_ok returned] at prepared
    have sameBefore : collected t.world.log = collected s.world.log :=
      unwaited.of_ok returned .collected (by decide)
    have continued := cont_clean keeps t prepared
    refine stateAfter_bind (fun e q raised => ?_) fun _ q resumed => ?_
    · rw [stateAfter_of_error raised] at continued
      have same : collected q.world.log = collected t.world.log :=
        cont_touches.of_error raised .collected (by decide)
      exact ⟨continued, fun changed => absurd (same.trans sameBefore) changed⟩
    · rw [stateAfter_of_ok resumed] at continued
      have same : collected q.world.log = collected s.world.log :=
        (cont_touches.of_ok resumed .collected (by decide)).trans sameBefore
      have restores := wait_restores keeps spells fuel q
      refine stateAfter_bind (fun e p raised => ?_) fun _ p ended => ?_
      · rw [stateAfter_of_error raised] at restores
        exact ⟨restores.clean continued,
          fun changed => restores.restored continued (same ▸ changed)⟩
      · rw [stateAfter_of_ok ended] at restores
        cases wasFound with
        | true =>
            exact ⟨restores.clean continued,
              fun changed => restores.restored continued (same ▸ changed)⟩
        | false =>
            have collects := wait_collects (waits _ t returned rfl _ q resumed) ended
            have pristine := restores.restored continued collects
            obtain ⟨still, pristine⟩ :=
              (restores.clean continued).unset (k := k) bp pristine
            exact ⟨still, fun _ => pristine⟩

/-! ### Sessions -/

/-- The invariant: clean, and the program's own unless a trap may be in memory. -/
structure Tidy (own : Memory) (text : Set Nat) (s : Debugger K × Bool) : Prop where
  clean : s.1.Clean own text
  pristine : s.2 = false → s.1.Pristine own text

theorem Tidy.of_kept {armed : Bool} (tidy : Tidy own text (s, armed))
    (kept : TextKept own text s t) :
    Tidy own text (t, armed) :=
  ⟨tidy.clean.of_kept kept, fun off => (tidy.pristine off).of_kept kept⟩

/-- The flag after a command, from the state that it leads to. -/
abbrev flagAfter (k : Kernel K) (s : Debugger K × Bool) (next : Debugger K) (command : Command) :
    Bool :=
  (s.2 || armedBy s.1 next command) && !restoredBy k s.1 next command

theorem Tidy.of_restores {s : Debugger K × Bool} {next : Debugger K} {command : Command}
    (tidy : Tidy own text s) (restores : Restores own text s.1 next)
    (unarmed : armedBy s.1 next command = false)
    (restored : restoredBy k s.1 next command = true →
      collected next.world.log ≠ collected s.1.world.log) :
    Tidy own text (next, flagAfter k s next command) := by
  refine ⟨restores.clean tidy.clean, fun off => ?_⟩
  rw [flagAfter, unarmed, Bool.or_false, Bool.and_eq_false_iff] at off
  rcases off with before | after
  · exact restores.pristine tidy.clean (tidy.pristine before)
  · exact restores.restored tidy.clean (restored (by simpa using after))

theorem breakpoint_tidy {s : Debugger K × Bool} (tidy : Tidy own text s) {address : Nat}
    {symbol : String} {hardware : Bool} {condition : Option String} {length : Nat}
    {callback : Option Callback}
    (careful : CleanCommand k own text s.1
      (.breakpoint address symbol hardware condition length callback)) :
    let created := breakpoint k address symbol hardware condition length callback
    Tidy own text (stateAfter created s.1, flagAfter k s (stateAfter created s.1)
      (.breakpoint address symbol hardware condition length callback)) := by
  dsimp only
  rw [breakpoint_eq]
  set object : Breakpoint :=
    { address, symbol, hardware, callback, length,
      condition :=
        if hardware ∧ (condition = none ∨ condition = some "") then some "x" else condition }
  refine stateAfter_bind (motive := fun t => Tidy own text (t, flagAfter k s t
    (.breakpoint address symbol hardware condition length callback))) (fun e t raised => ?_)
    fun _ t returned => ?_
  · obtain rfl : t = s.1 := (checks_keep hardware condition length).of_error (R := Same id) raised
    refine ⟨tidy.clean, fun off => tidy.pristine ?_⟩
    simpa [flagAfter, armedBy, restoredBy] using off
  · have captures := fun software => careful software _ _ returned
    obtain rfl : t = s.1 := (checks_keep hardware condition length).of_ok (R := Same id) returned
    have made : s.1.nextRef < _ := makeBreakpoint_nextRef (k := k) object
    refine ⟨makeBreakpoint_clean tidy.clean object captures, fun off => ?_⟩
    have off : s.2 = false ∧ hardware = true := by
      simpa [flagAfter, armedBy, restoredBy, made.ne'] using off
    exact (tidy.pristine off.1).of_kept (makeBreakpoint_textKept object off.2)

theorem finish_tidy (keeps : k.KeepsText text) (spells : SpellsText own text u)
    {s : Debugger K × Bool} (tidy : Tidy own text s) {fuel : Nat} {threadId : Int}
    {heuristic : String} {returnAddress : Option Nat}
    (careful : CleanCommand k own text s.1 (.finish fuel threadId heuristic returnAddress)) :
    Tidy own text (stateAfter (finish k u fuel threadId heuristic returnAddress) s.1,
      flagAfter k s (stateAfter (finish k u fuel threadId heuristic returnAddress) s.1)
        (.finish fuel threadId heuristic returnAddress)) := by
  -- a state that is clean, and the program's own where the breakpoints have been restored
  have tidied {next : Debugger K} (clean : next.Clean own text)
      (restored : restoredBy k s.1 next (.finish fuel threadId heuristic returnAddress) = true →
        next.Pristine own text) :
      Tidy own text (next, flagAfter k s next (.finish fuel threadId heuristic returnAddress)) := by
    refine ⟨clean, fun off => ?_⟩
    rw [flagAfter, Bool.and_eq_false_iff] at off
    rcases off with unarmed | done
    · exact clean.pristine (by simpa [armedBy] using (Bool.or_eq_false_iff.mp unarmed).2)
    · exact restored (by simpa using done)
  simp only [finish]
  by_cases stepping : heuristic = "step-mode"
  · rw [if_pos stepping]
    obtain ⟨clean, pristine⟩ := finishStepMode_clean keeps fuel threadId tidy.clean
    refine tidied clean fun restored => ?_
    rw [restoredBy, if_pos stepping, decide_eq_true_iff] at restored
    obtain ⟨_, t, returned, -⟩ := restored
    rw [stateAfter_of_ok returned]
    exact pristine _ t returned
  · have unchanged : Tidy own text (s.1, flagAfter k s s.1
        (.finish fuel threadId heuristic returnAddress)) :=
      tidied tidy.clean fun restored => by simp [restoredBy, stepping] at restored
    rw [if_neg stepping]
    split
    · rename_i backtrace
      subst backtrace
      cases returnAddress with
      | none => exact unchanged
      | some returnAddress =>
          obtain ⟨clean, pristine⟩ := finishBacktrace_clean keeps spells tidy.clean careful
          refine tidied clean fun restored => pristine ?_
          simpa [restoredBy, stepping] using restored
    · exact unchanged

theorem command_tidy (keeps : k.KeepsText text) (spells : SpellsText own text u)
    {s : Debugger K × Bool} (tidy : Tidy own text s) {command : Command}
    (careful : CleanCommand k own text s.1 command) :
    Tidy own text (stateAfter (command.program k u) s.1,
      flagAfter k s (stateAfter (command.program k u) s.1) command) := by
  -- the methods that neither switch breakpoints nor wait
  have kept {next : Debugger K} (kept : TextKept own text s.1 next)
      (unarmed : armedBy s.1 next command = false)
      (unrestored : restoredBy k s.1 next command = false) :
      Tidy own text (next, flagAfter k s next command) := by
    rw [flagAfter, unarmed, unrestored, Bool.or_false, Bool.not_false, Bool.and_true]
    exact tidy.of_kept kept
  cases command with
  | registerNewThread threadId => exact kept (registerNewThread_textKept threadId s.1) rfl rfl
  | setupParent fuel =>
      have startup (isStartup : Bool) : Keeps (Restores own text) (modify fun s : Debugger K =>
          { s with resumeContext := { s.resumeContext with isStartup } } : Py K Unit) :=
        Keeps.modify fun s => .of_kept (.of_same rfl rfl) rfl
      have restores : Keeps (Restores own text) (setupParent k u fuel) :=
        (startup true).bind fun _ => (wait_restores keeps spells fuel).bind fun _ => startup false
      exact tidy.of_restores (restores s.1) rfl (by simp [restoredBy])
  | act action =>
      refine kept (perform_textKept s.1 action ?_) rfl rfl
      rintro address value rfl
      exact careful
  | breakpoint address symbol hardware condition length callback =>
      exact breakpoint_tidy tidy careful
  | handleSyscall number onEnter onExit recursive =>
      have handles : Keeps (TextKept own text)
          (Command.program k u (.handleSyscall number onEnter onExit recursive)) :=
        ensureAlive_keeps.bind fun _ => putHandler_textKept _ _ _ _
      exact kept (handles s.1) rfl rfl
  | catchSignal number callback recursive =>
      exact kept (catchSignal_textKept number callback recursive s.1) rfl rfl
  | interrupt => exact kept (.of_same rfl rfl) rfl rfl
  | cont =>
      have clean := cont_clean keeps s.1 tidy.clean
      refine ⟨clean, fun off => clean.pristine ?_⟩
      have off : s.2 = false ∧
          (stateAfter (Command.program k u .cont) s.1).globalState.enabledAddrs = [] := by
        simpa [flagAfter, armedBy, restoredBy] using off
      exact off.2
  | step threadId => exact kept (step_textKept keeps threadId s.1) rfl rfl
  | stepUntil fuel threadId address maxSteps =>
      exact kept (stepUntil_textKept keeps fuel threadId address maxSteps s.1) rfl rfl
  | finish fuel threadId heuristic returnAddress => exact finish_tidy keeps spells tidy careful
  | wait fuel =>
      have resumes : Keeps (Restores own text) (modify (·.setResume true) : Py K Unit) :=
        Keeps.modify fun s => .of_kept (.of_same rfl rfl) rfl
      have restores : Keeps (Restores own text) (Command.program k u (.wait fuel)) :=
        resumes.bind fun _ => wait_restores keeps spells fuel
      exact tidy.of_restores (restores s.1) rfl (by simp [restoredBy])

theorem arming_step {s next : Debugger K × Bool} {command : Command}
    (stepped : (arming k u).step s command = some next) :
    next = (stateAfter (command.program k u) s.1,
      flagAfter k s (stateAfter (command.program k u) s.1) command) := by
  obtain ⟨t, commanded, rfl⟩ := Option.map_eq_some_iff.mp stepped
  rw [Debugger.stateAfter_of_command commanded]

/-- In every state that a run of careful commands reaches. -/
theorem arming_tidy (keeps : k.KeepsText text) {world : World K}
    (spells : SpellsText world.mem text u) {commands : List Command} {s : Debugger K × Bool}
    (careful : (arming k u).Meets (fun s command => CleanCommand k world.mem text s.1 command)
      (.initial world, false) commands)
    (reached : (arming k u).run (.initial world, false) commands = some s) :
    Tidy world.mem text s := by
  have initially : Tidy world.mem text (Debugger.initial world, false) :=
    ⟨⟨by simp [Debugger.initial, Debugger.session, GlobalState.empty], fun _ _ => .inl rfl⟩,
      fun _ _ _ => rfl⟩
  refine Machine.run_invariant (fun s command next tidy careful stepped => ?_) initially careful
    reached
  rw [arming_step stepped]
  exact command_tidy keeps spells tidy careful

/-! ### Releasing the process -/

theorem setregsStopped_text (keeps : k.KeepsText text) (pid : Int) (t : Thread) (regs : UserRegs)
    (w : World K) : ∀ x ∈ text, (setregsStopped k pid t regs w).mem x = w.mem x := by
  intro x inText
  unfold setregsStopped
  split
  · rfl
  · have waited := keeps.waitpid w.mem (k.tgkill w.os pid t.tid SIGSTOP) (.thread t.tid) false x
      inText
    simp only [World.tgkill, World.setregs]
    split <;> exact waited

theorem ptraceDetachAndCont_text (keeps : k.KeepsText text) (released : r.KeepsText text)
    (g : GlobalState) (w : World K) (pid : Int) :
    ∀ x ∈ text, (ptraceDetachAndCont k r g w pid).mem x = w.mem x := by
  intro x inText
  have detached (threads : List Thread) (w : World K) :
      (threads.foldl (detachThread k r g pid) w).mem x = w.mem x := by
    induction threads generalizing w with
    | nil => rfl
    | cons t rest ih =>
        rw [List.foldl_cons, ih]
        exact (released.detach _ _ t.tid x inText).trans
          (setregsStopped_text keeps pid t (g.files t.regs) w x inText)
  exact (released.kill _ _ pid SIGCONT x inText).trans (detached g.tHead w)

/-- The text is as clean after `detach` as before. -/
theorem detach_text (keeps : k.KeepsText text) (released : r.KeepsText text)
    (returned : (detach k r).run s = .ok () t) : ∀ x ∈ text, t.world.mem x = s.world.mem x := by
  intro x inText
  obtain ⟨_, _, read, returned⟩ := ok_of_bind returned
  cases read
  obtain ⟨_, removed, loop, returned⟩ := ok_of_bind returned
  cases returned
  have leaves : Leaves (·.world.mem) (s.breakpoints.values.forM (disableForDetach k)) :=
    Keeps.forM fun bp _ => Keeps.get.bind fun t =>
      Keeps.ite (fun _ => unsetBreakpoint_memory bp) fun _ => Keeps.pure _
  have memory : removed.world.mem = s.world.mem := leaves.of_ok loop
  exact (ptraceDetachAndCont_text keeps released _ _ _ x inText).trans (congrFun memory x)

/-- Releases that leave everything as it is. -/
def letGo : Release Script := ⟨fun mem os _ => (mem, os), fun mem os _ _ => (mem, os)⟩

theorem letGo_keepsText (text : Set Nat) : letGo.KeepsText text :=
  ⟨fun _ _ _ _ _ => rfl, fun _ _ _ _ _ _ => rfl⟩

/-- Thread 1 behind the trap at `0x2000`, of which one stop is reported. -/
def trapped : World Script :=
  .nops
    { registers := fun _ => some fun _ => 0x2001
      reports := [some ⟨1, 0x057f, .softwareTrap⟩, none] }

end Libdebug.Ptrace
