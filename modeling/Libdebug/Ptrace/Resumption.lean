import Libdebug.Ptrace.Observation
import Libdebug.Ptrace.MarkedText
import Libdebug.Ptrace.StopDecision
import Libdebug.Ptrace.TrapCauses

/-!
`cont`, and the wait that follows: from one breakpoint to the next.

The changes are applied, the thread is let run in the armed text, and the handler of the trap puts
its instruction pointer back and counts the hit.
-/

namespace Libdebug.Ptrace

open Libdebug.Foundation Libdebug.Cffi

variable {K : Type} {k : Kernel K} {u : UserCode K} {own : Memory} {text : Set Nat}
  {s t : Debugger K} {bp : Ref}

/-! ### Applying the changes -/

theorem Debugger.settle_objects {bps : List Ref} (member : bp ∈ bps) :
    (s.settle bps).objects bp = { s.objects bp with disabledForStep := false, changed := false } :=
  if_pos member

/-- Of the state in which they began, changes alter the table, and memory in the text: what they
plant is fresh. -/
structure Applied (own : Memory) (text : Set Nat) (fresh : Nat → Prop) (start s : Debugger K) :
    Prop where
  same : ∃ bHead mem, s = start.withLib { start.globalState with bHead } { start.world with mem }
  addresses : s.globalState.bHead.map (·.addr) = start.globalState.bHead.map (·.addr)
  clean : ∃ planted, Session.Clean own text ⟨s.globalState, s.world, planted⟩ ∧
    ∀ x ∈ planted, fresh x
  windowed : Windowed text s.globalState.bHead
  data : Set.EqOn s.world.mem start.world.mem textᶜ

variable {fresh : Nat → Prop} {start : Debugger K}

/-- An entry is switched, and a word written there. -/
theorem Applied.switch (applied : Applied own text fresh start s) {address : Nat}
    {b : SoftwareBreakpoint} (found : findEntry address s.globalState.bHead = some b)
    {enabled : Bool} {word : Word} {planted : List Nat} (new : ∀ x ∈ planted, fresh x)
    (clean : Session.Clean own text
      ⟨{ s.globalState with bHead := setEnabled address enabled s.globalState.bHead },
        s.world.pokedata address word, planted⟩) :
    Applied own text fresh start
      (s.withLib { s.globalState with bHead := setEnabled address enabled s.globalState.bHead }
        (s.world.pokedata address word)) := by
  obtain ⟨inTable, rfl⟩ := findEntry_some found
  refine ⟨?_, ?_, ⟨planted, clean, new⟩, fun entry member => ?_, fun x outside => ?_⟩
  · obtain ⟨bHead, mem, rfl⟩ := applied.same
    exact ⟨_, _, rfl⟩
  · exact (map_addr_setEnabled ..).trans applied.addresses
  · obtain ⟨old, there, same, -⟩ := mem_setEnabled member
    exact same ▸ applied.windowed old there
  · exact (pokeWord_outside fun covered => outside (applied.windowed b inTable x covered)).trans
      (applied.data outside)

theorem setBreakpoint_switch (k : Kernel K) (bp : Ref) :
    setBreakpoint k bp false = placeBreakpoint k bp false := by
  simp [setBreakpoint]

theorem unsetBreakpoint_switch (k : Kernel K) (bp : Ref) :
    unsetBreakpoint k bp false = displaceBreakpoint k bp false := by
  simp [unsetBreakpoint]

theorem callLib?_run {f : GlobalState → World K → Option (GlobalState × World K)}
    {g : GlobalState} {w : World K} (called : f s.globalState s.world = some (g, w)) :
    (callLib? f).run s = .ok () (s.withLib g w) := by
  simp only [callLib?, EStateM.run_bind, EStateM.run_get, called]
  rfl

/-- Where there is a thread, switching an entry does not crash. -/
theorem switches_of_running {g : GlobalState} {w : World K} {address : Nat}
    (running : g.tHead ≠ []) {b : SoftwareBreakpoint} (found : findEntry address g.bHead = some b) :
    Cffi.enableBreakpoint g w address = some
        ({ g with bHead := setEnabled address true g.bHead },
          w.pokedata address b.patchedInstruction) ∧
      Cffi.disableBreakpoint g w address = some
        ({ g with bHead := setEnabled address false g.bHead },
          w.pokedata address b.instruction) := by
  obtain ⟨node, rest, nodes⟩ := List.exists_cons_of_ne_nil running
  rw [Cffi.enableBreakpoint, Cffi.disableBreakpoint, found, nodes]
  exact ⟨rfl, rfl⟩

/-- A change to a software breakpoint is applied. -/
theorem applyChange_applied (software : (start.objects bp).hardware = false)
    (listed : ∃ b ∈ start.globalState.bHead, b.addr = (start.objects bp).address)
    (running : start.globalState.tHead ≠ []) (marked : fresh (start.objects bp).address)
    (applied : Applied own text fresh start s) :
    ∃ t, (applyChange k bp).run s = .ok () t ∧ Applied own text fresh start t := by
  obtain ⟨⟨bHead, mem, same⟩, addresses, ⟨planted, clean, new⟩, -, -⟩ := id applied
  have objects : s.objects = start.objects := by rw [same]; rfl
  have nodes : s.globalState.tHead = start.globalState.tHead := by rw [same]; rfl
  rw [← objects] at software marked listed
  rw [← nodes] at running
  rcases found : findEntry (s.objects bp).address s.globalState.bHead with _ | b
  · rw [← List.mem_map, ← addresses, List.mem_map] at listed
    obtain ⟨b, inTable, there⟩ := listed
    exact absurd there (findEntry_none.mp found b inTable)
  obtain ⟨enables, disables⟩ := switches_of_running (w := s.world) running found
  by_cases on : (s.objects bp).enabled
  · refine ⟨_, ?_, applied.switch found ?_ (clean.enableBreakpoint found)⟩
    · simp only [applyChange, EStateM.run_bind, EStateM.run_get, on, if_true, setBreakpoint_switch,
        placeBreakpoint, software, Bool.false_eq_true, if_false]
      exact callLib?_run (f := fun g w => Cffi.enableBreakpoint g w (s.objects bp).address) enables
    · refine List.forall_mem_cons.mpr ⟨marked, fun x kept => new x (mem_overwrite.mp kept).1⟩
  · refine ⟨_, ?_, applied.switch found ?_ (clean.disableBreakpoint found)⟩
    · simp only [applyChange, EStateM.run_bind, EStateM.run_get, on, unsetBreakpoint_switch,
        displaceBreakpoint, software, Bool.false_eq_true, if_false]
      exact callLib?_run (f := fun g w => Cffi.disableBreakpoint g w (s.objects bp).address)
        disables
    · exact fun x kept => new x (mem_overwrite.mp kept).1

theorem forwardSignals_quiet (nothing : s.resumeContext.threadsWithSignalsToForward = []) :
    (forwardSignals : Py K Unit).run s = .ok () s := by
  simp only [forwardSignals, EStateM.run_bind, EStateM.run_get, nothing, ne_eq, not_true_eq_false,
    if_false, EStateM.run_pure]

namespace Observed

variable {phase : K → Phase} {tid : Int} {o : Observation}

/-- The changes are applied, whichever they are. -/
theorem changes (observed : Observed own text phase tid o s) (k : Kernel K) :
    ∃ changed, (forwardSignals >>= fun _ => applyChanges k).run s = .ok () changed ∧
      Applied own text o.Fresh (s.settle s.breakpoints.values) changed ∧
      SoftwareInOrder [] changed := by
  set start := s.settle s.breakpoints.values with begun
  set todo := s.breakpoints.values.filter fun bp => (s.objects bp).changed with collected
  have settled (bp : Ref) : (start.objects bp).address = (s.objects bp).address ∧
      (start.objects bp).hardware = (s.objects bp).hardware := by
    simp only [begun, Debugger.settle]
    split <;> exact ⟨rfl, rfl⟩
  have initially : Applied own text o.Fresh start start :=
    ⟨⟨_, _, rfl⟩, rfl, observed.planted.clean, observed.planted.windowed, Set.eqOn_refl _ _⟩
  have turn : ∀ bp ∈ todo, ∀ s, Applied own text o.Fresh start s →
      ∃ t, (applyChange k bp).run s = .ok () t ∧ Applied own text o.Fresh start t := by
    intro bp member t applied
    obtain ⟨inDict, isChanged⟩ := List.mem_filter.mp member
    obtain ⟨address, filed⟩ := Dict.mem_values.mp inDict
    obtain ⟨m, found, rfl⟩ := (observed.marked.filed _ _).mp filed
    have carries := observed.marked.objects bp m found
    refine applyChange_applied ?_ ?_ ?_ ?_ applied
    · rw [(settled bp).2, carries.software]
    · rw [(settled bp).1, carries.address]
      exact (observed.inOrder.listed m.address).mpr ⟨bp, filed, carries.software⟩
    · have nodes : start.globalState.tHead = _ := observed.quiet.nodes
      rw [nodes]
      exact List.cons_ne_nil _ _
    · rw [(settled bp).1, carries.address]
      exact ⟨m, List.mem_of_getElem? found, carries.changed isChanged, rfl⟩
  obtain ⟨changed, returned, applied⟩ := forM_returns turn initially
  refine ⟨changed, ?_, applied, ?_⟩
  · rw [EStateM.run_bind, forwardSignals_quiet observed.quiet.nothingToForward]
    simp only [applyChanges, EStateM.run_bind, EStateM.run_get,
      collectChanged_run observed.inOrder.filed.nodup, ← begun, ← collected]
    exact returned
  · have applying : Applying start todo start :=
      ⟨observed.inOrder.settle, rfl, rfl, rfl, rfl, fun bp member => (List.mem_filter.mp member).1⟩
    exact (forM_ok (fun _ _ _ _ applying returned => applying.applyChange returned) applying
      returned).inOrder

end Observed

/-! ### Traps -/

/-- The status of a thread that has stopped by `SIGTRAP` -/
def trapOf (tid : Int) (cause : StopCause) : ThreadStatus := ⟨tid, trapStatus, cause⟩

section Handling

variable {tid : Int} {a : Nat} {cause : StopCause} {r : Debugger K}

theorem Debugger.Lone.thread (quiet : s.Lone tid) : s.getThreadById tid = some 0 ∧
    ∃ thread, s.threads[0]? = some thread ∧ thread.registerFile = 0 := by
  obtain ⟨thread, threads, rfl, alive, file⟩ := quiet.threads
  refine ⟨?_, thread, by rw [threads]; rfl, file⟩
  simp [Debugger.getThreadById, threads, alive]

/-- A signal that nobody catches is noted in the thread context. -/
theorem handleStop_notes (quiet : s.Lone tid) (kept : s.forwardSignal = false) :
    (handleStop u (trapOf tid cause) SIGTRAP).run s =
      .ok () (s.receive (trapOf tid cause) 0 SIGTRAP) := by
  obtain ⟨found, -⟩ := quiet.thread
  set noted := s.receive (trapOf tid cause) 0 SIGTRAP with receives
  have uncaught : noted.caughtSignals = .empty := quiet.uncaught
  have quietly : (handleSignal u 0 (trapOf tid cause).tid).run noted = .ok () noted := by
    simp only [handleSignal, EStateM.run_bind, EStateM.run_get, manageCaughtSignal, uncaught]
    rfl
  have forwards : noted.forwardSignal = false := kept
  have there : s.getThreadById (trapOf tid cause).tid = some 0 := found
  rw [handleStop, EStateM.run_bind, run_getThreadById, there]
  simp only [EStateM.run_bind, EStateM.run_modify, ← receives, quietly, appendSignalToForward,
    forwards, Bool.false_eq_true, false_and, if_false]

theorem Debugger.Lone.receive (quiet : s.Lone tid) :
    (s.receive (trapOf tid cause) 0 SIGTRAP).Lone tid := by
  obtain ⟨thread, threads, id, alive, file⟩ := quiet.threads
  refine ⟨quiet.nodes, ⟨{ thread with signalNumber := SIGTRAP }, ?_, id, alive, file⟩,
    quiet.notStepping, quiet.started, quiet.nothingToForward, quiet.unhandled, quiet.uncaught,
    quiet.unwatched⟩
  change s.threads.modify 0 ({ · with signalNumber := SIGTRAP }) = _
  rw [threads]
  rfl

theorem trapOf_stopped (tid : Int) (cause : StopCause) :
    wifstopped (trapOf tid cause).status = true ∧
      wstopsig (trapOf tid cause).status = SIGTRAP := by
  change wifstopped trapStatus = true ∧ wstopsig trapStatus = SIGTRAP
  decide

/-- A trap announces nothing. -/
theorem handleEvent_trap (results : List ThreadStatus) :
    (handleEvent k tid ((trapOf tid cause).status / 256) results).run s = .ok () s := by
  change (handleEvent k tid (trapStatus / 256) results).run s = .ok () s
  rw [handleEvent, if_neg (by decide), if_neg (by decide)]
  rfl

/-- What the signal handler does with a trap is up to the breakpoints and the step. -/
theorem internalSignalHandler_ends {results : List ThreadStatus}
    (handled : (handleBreakpoints k u tid).run s = .ok () t)
    (ended : (finishStep : Py K Unit).run t = .ok () r) :
    (internalSignalHandler k u (trapOf tid cause).tid (wstopsig (trapOf tid cause).status) results
      (trapOf tid cause).status).run s = .ok () r := by
  have known : (handleBreakpoints k u (trapOf tid cause).tid).run s = .ok () t := handled
  rw [internalSignalHandler_trap (trapOf_stopped tid cause).2, EStateM.run_bind,
    EStateM.run_bind, known]
  dsimp only
  rw [ended]
  exact handleEvent_trap results

/-- So is what `manage_change` does with it. -/
theorem manageChange_trap (genuine : tid ≠ -1) (started : s.resumeContext.isStartup = false)
    (handled : (handleBreakpoints k u tid).run (s.setForwardSignal true) = .ok () t)
    (ended : (finishStep : Py K Unit).run t = .ok () r) (quiet : r.Lone tid)
    (kept : r.forwardSignal = false) :
    (manageChange k u [trapOf tid cause]).run s =
      .ok () (r.receive (trapOf tid cause) 0 SIGTRAP) := by
  obtain ⟨stopped, signal⟩ := trapOf_stopped tid cause
  have only : [trapOf tid cause].filter (·.tid ≠ -1) = [trapOf tid cause] := by
    simp [trapOf, genuine]
  have changes : (handleChange k u (trapOf tid cause) [trapOf tid cause]).run s =
      .ok () (r.receive (trapOf tid cause) 0 SIGTRAP) := by
    rw [handleChange_stopped stopped started, EStateM.run_bind,
      internalSignalHandler_ends handled ended, signal]
    exact handleStop_notes quiet kept
  rw [manageChange, only]
  change (handleChange k u (trapOf tid cause) [trapOf tid cause] >>= fun _ => pure ()).run s = _
  rw [EStateM.run_bind, changes]
  rfl

/-! ### The trap of a breakpoint -/

/-- The instruction pointer is set back, and the breakpoint linked to the thread. -/
def Debugger.setBackTo (s : Debugger K) (tid : Int) (a : Nat) (bp : Ref) : Debugger K :=
  (s.writeReg 0 .rip a).updateBreakpoint bp fun b =>
    { b with linkedThreadIds := b.linkedThreadIds ++ [tid] }

/-- The hit is counted, and the process is to stop. -/
def Debugger.credited (s : Debugger K) (bp : Ref) : Debugger K :=
  ((s.setForwardSignal false).updateBreakpoint bp fun b =>
    { b with hitCount := b.hitCount + 1 }).setResume false

/-- The state once the trap of a breakpoint has been handled -/
def Debugger.trapHandled (s : Debugger K) (tid : Int) (a : Nat) (bp : Ref) : Debugger K :=
  (((s.setForwardSignal true).setBackTo tid a bp).credited bp).receive
    (trapOf tid .softwareTrap) 0 SIGTRAP

theorem Debugger.trapHandled_objects (s : Debugger K) (tid : Int) (a : Nat) (bp other : Ref) :
    (s.trapHandled tid a bp).objects other =
      if other = bp then { s.objects bp with
        linkedThreadIds := (s.objects bp).linkedThreadIds ++ [tid]
        hitCount := (s.objects bp).hitCount + 1 } else s.objects other := by
  by_cases same : other = bp
  · subst same
    simp [Debugger.trapHandled, Debugger.credited, Debugger.setBackTo, Debugger.updateBreakpoint,
      Debugger.receive, Debugger.setResume, Debugger.setForwardSignal, Debugger.updateThread,
      Debugger.writeReg]
  · simp [Debugger.trapHandled, Debugger.credited, Debugger.setBackTo, Debugger.updateBreakpoint,
      Debugger.receive, Debugger.setResume, Debugger.setForwardSignal, Debugger.updateThread,
      Debugger.writeReg, same]

theorem Debugger.trapHandled_file (s : Debugger K) (tid : Int) (a : Nat) (bp : Ref) :
    (s.trapHandled tid a bp).globalState.files 0 =
      Function.update (s.globalState.files 0) .rip a := by
  simp [Debugger.trapHandled, Debugger.credited, Debugger.setBackTo, Debugger.updateBreakpoint,
    Debugger.receive, Debugger.setResume, Debugger.setForwardSignal, Debugger.updateThread,
    Debugger.writeReg, GlobalState.setFile]

theorem findHit_setsBack {thread : ThreadContext} (file : thread.registerFile = 0)
    (elsewhere : s.activeBreakpoint (a + 1) = none) (active : s.activeBreakpoint a = some bp) :
    (findHit k tid thread (a + 1)).run s = .ok (some bp) (s.setBackTo tid a bp) := by
  have before : (beforeTrap (a + 1)).bind s.activeBreakpoint = some bp := active
  simp only [findHit, EStateM.run_bind, EStateM.run_get, elsewhere, before, EStateM.run_modify,
    file, Debugger.setBackTo]
  rfl

theorem creditHit_stops (silent : (s.objects bp).callback = none) :
    (creditHit u tid bp).run s = .ok () (s.credited bp) := by
  have unset : (((s.setForwardSignal false).updateBreakpoint bp fun b =>
      { b with hitCount := b.hitCount + 1 }).objects bp).callback = none := by
    simp only [Debugger.updateBreakpoint, Function.update_self]
    exact silent
  simp only [creditHit, EStateM.run_bind, EStateM.run_modify, EStateM.run_get, unset,
    Debugger.credited]

theorem handleBreakpoints_sets (quiet : s.Lone tid) (there : s.globalState.files 0 .rip = a + 1)
    (elsewhere : s.activeBreakpoint (a + 1) = none) (active : s.activeBreakpoint a = some bp)
    (silent : (s.objects bp).callback = none) :
    (handleBreakpoints k u tid).run s = .ok () ((s.setBackTo tid a bp).credited bp) := by
  obtain ⟨found, thread, context, file⟩ := quiet.thread
  have ip : s.readReg thread .rip = a + 1 := by rw [Debugger.readReg, file, there]
  have unset : ((s.setBackTo tid a bp).objects bp).callback = none := by
    simp only [Debugger.setBackTo, Debugger.updateBreakpoint, Function.update_self]
    exact silent
  simp only [handleBreakpoints, EStateM.run_bind, EStateM.run_get, found, Option.bind_some, context,
    ip, findHit_setsBack file elsewhere active]
  exact creditHit_stops unset

theorem manageChange_handles (quiet : s.Lone tid) (genuine : tid ≠ -1)
    (there : s.globalState.files 0 .rip = a + 1)
    (elsewhere : s.activeBreakpoint (a + 1) = none) (active : s.activeBreakpoint a = some bp)
    (silent : (s.objects bp).callback = none) :
    (manageChange k u [trapOf tid .softwareTrap]).run s = .ok () (s.trapHandled tid a bp) := by
  have begun : (s.setForwardSignal true).Lone tid := quiet.frame rfl
  set sets := ((s.setForwardSignal true).setBackTo tid a bp).credited bp with afterHit
  have ended : sets.Lone tid := quiet.frame rfl
  refine manageChange_trap genuine quiet.started
    (handleBreakpoints_sets begun there elsewhere active silent) ?_ ended rfl
  simp only [finishStep, EStateM.run_modify, ← afterHit, ended.notStepping, Bool.false_eq_true,
    if_false]

/-! ### The trap of a step -/

/-- The step is over, and the process is to stop. -/
def Debugger.stepEnded (s : Debugger K) : Debugger K :=
  { s with
    resumeContext := { s.resumeContext with resume := false, isAStep := false }
    forwardSignal := false }

/-- No breakpoint counts as hit. -/
theorem handleBreakpoints_passes (quiet : s.stepEnded.Lone tid)
    (off : ∀ x, s.activeBreakpoint x = none)
    (reads : (k.peekuser s.world.os tid dr6Offset).isSome) :
    (handleBreakpoints k u tid).run s = .ok () s := by
  obtain ⟨found, thread, context, -⟩ := quiet.thread
  obtain ⟨helper, managed, free⟩ := quiet.unwatched
  change s.getThreadById tid = some 0 at found
  change s.threads[0]? = some thread at context
  change s.hardwareBpHelpers.get? tid = some helper at managed
  obtain ⟨dr6, read⟩ := Option.isSome_iff_exists.mp reads
  have passes : (findHit k tid thread (s.readReg thread .rip)).run s = .ok none s := by
    have before : (beforeTrap (s.readReg thread .rip)).bind s.activeBreakpoint = none := by
      simp [off]
    set stop : TrapStop := ⟨false, false, s.readReg thread .rip, dr6⟩
    have watches : (isWatchpointHit k tid).run s = .ok (lowestWatchpoint s helper stop) s :=
      run_isWatchpointHit managed read
    have none : lowestWatchpoint s helper stop = none := by
      simp [lowestWatchpoint, free]
    rw [findHit_elsewhere (off _) before, watches, none]
  simp only [handleBreakpoints, EStateM.run_bind, EStateM.run_get, found, Option.bind_some, context,
    passes]
  rfl

theorem manageChange_ends (quiet : s.stepEnded.Lone tid) (genuine : tid ≠ -1)
    (stepping : s.resumeContext.isAStep = true) (off : ∀ x, s.activeBreakpoint x = none)
    (reads : (k.peekuser s.world.os tid dr6Offset).isSome) :
    (manageChange k u [trapOf tid .singleStep]).run s =
      .ok () (s.stepEnded.receive (trapOf tid .singleStep) 0 SIGTRAP) := by
  have begun : (s.setForwardSignal true).stepEnded.Lone tid := quiet
  have steps : (s.setForwardSignal true).resumeContext.isAStep = true := stepping
  refine manageChange_trap genuine quiet.started (handleBreakpoints_passes begun off reads) ?_
    begun rfl
  simp only [finishStep, EStateM.run_modify, steps, if_true]
  rfl

end Handling

/-! ### From one breakpoint to the next -/

/-- No breakpoint is disabled for a step. -/
def Debugger.Counting (s : Debugger K) : Prop :=
  ∀ address i, s.breakpoints.get? address = some i → (s.objects i).disabledForStep = false

section Marks

variable {marks : List Mark} {program x : ProgramState} {tid : Int} {phase : K → Phase}
  {address : Nat}

/-- The breakpoint at a trap counts as hit. -/
theorem Debugger.Marked.active (marked : s.Marked marks) (counting : s.Counting)
    (trap : address ∈ (⟨program, marks⟩ : Observation).traps) :
    ∃ (i : Nat) (m : Mark), marks[i]? = some m ∧ m.address = address ∧ m.enabled = true ∧
      s.activeBreakpoint address = some i := by
  obtain ⟨i, m, found, there, on⟩ := Observation.mem_traps.mp trap
  have filed : s.breakpoints.get? address = some i := (marked.filed _ _).mpr ⟨m, found, there⟩
  refine ⟨i, m, found, there, on, ?_⟩
  simp [Debugger.activeBreakpoint, filed, (marked.objects i m found).enabled, on,
    counting address i filed]

/-- No breakpoint counts as hit elsewhere. -/
theorem Debugger.Marked.inactive (marked : s.Marked marks)
    (elsewhere : address ∉ (⟨program, marks⟩ : Observation).traps) :
    s.activeBreakpoint address = none := by
  refine Option.filter_eq_none_iff.mpr fun i filed counts => elsewhere ?_
  obtain ⟨m, found, there⟩ := (marked.filed _ _).mp filed
  have carries := marked.objects i m found
  rw [Bool.and_eq_true] at counts
  exact Observation.mem_traps.mpr ⟨i, m, found, there, carries.enabled ▸ counts.1⟩

/-- Two breakpoints are at two addresses. -/
theorem Debugger.Marked.apart (marked : s.Marked marks) {i j : Nat} {m other : Mark}
    (found : marks[i]? = some m) (there : marks[j]? = some other)
    (same : m.address = other.address) : i = j := by
  have here := (marked.filed m.address i).mpr ⟨m, found, rfl⟩
  have second := (marked.filed m.address j).mpr ⟨other, there, same.symm⟩
  exact Option.some.inj (here.symm.trans second)

/-- A hit is counted where the program is. -/
theorem Debugger.Marked.trapHandled (marked : s.Marked marks) {i : Nat} {m : Mark}
    (found : marks[i]? = some m) (on : m.enabled = true)
    (settled : ∀ m ∈ marks, m.fresh = false) :
    (s.trapHandled tid m.address i).Marked (marks.map (·.reached m.address)) := by
  refine marked.change (List.length_map ..) (fun j reached there => ?_) rfl rfl
  rw [List.getElem?_map] at there
  obtain ⟨old, before, rfl⟩ := Option.map_eq_some_iff.mp there
  refine ⟨old, before, rfl, fun carries => ?_⟩
  have unchanged : (s.objects j).changed = false :=
    carries.unchanged (settled old (List.mem_of_getElem? before))
  by_cases here : j = i
  · subst here
    cases found.symm.trans before
    rw [Debugger.trapHandled_objects, if_pos rfl]
    refine ⟨carries.address, carries.enabled, ?_, carries.software, carries.callback,
      fun changed => ?_⟩
    · rw [Mark.reached, if_pos ⟨on, rfl⟩]
      exact congrArg (· + 1) carries.hits
    · rw [unchanged] at changed
      cases changed
  · have away : ¬ (old.enabled ∧ old.address = m.address) := fun both =>
      here (marked.apart before found both.2)
    rw [Debugger.trapHandled_objects, if_neg here]
    refine ⟨carries.address, carries.enabled, ?_, carries.software, carries.callback,
      fun changed => ?_⟩
    · rw [Mark.reached, if_neg away]
      exact carries.hits
    · rw [unchanged] at changed
      cases changed

/-- The handler of the trap undoes it, and the hit is counted. -/
theorem Observed.handles (observed : Observed own text phase tid ⟨⟨x.pastTrap, x.mem⟩, marks⟩ s)
    (k : Kernel K) (u : UserCode K) (genuine : tid ≠ -1) (counting : s.Counting)
    (settled : ∀ m ∈ marks, m.fresh = false)
    (trap : x.ip ∈ (⟨x, marks⟩ : Observation).traps)
    (gap : x.ip + 1 ∉ (⟨x, marks⟩ : Observation).traps) :
    ∃ t, (manageChange k u [trapOf tid .softwareTrap]).run s = .ok () t ∧
      t.resumeContext.resume = false ∧
      Observed own text phase tid ⟨x, marks.map (·.reached x.ip)⟩ t := by
  obtain ⟨i, m, found, there, on, active⟩ := observed.marked.active counting trap
  have regs : s.globalState.files 0 = x.pastTrap := observed.regs
  have past : s.globalState.files 0 .rip = x.ip + 1 := by
    rw [regs, ProgramState.pastTrap, Function.update_self]
  have handled := manageChange_handles (k := k) (u := u) observed.quiet genuine past
    (observed.marked.inactive gap) active (observed.marked.objects i m found).callback
  have inOrder := observed.inOrder.frame
    ((manageChange_touches [trapOf tid .softwareTrap]).of_ok handled) (by decide)
  obtain ⟨planted, clean, fresh⟩ := observed.planted.clean
  have quiet : (((s.setForwardSignal true).setBackTo tid x.ip i).credited i).Lone tid :=
    observed.quiet.frame rfl
  refine ⟨_, handled, rfl, quiet.receive, inOrder, ?_, ⟨⟨planted, ?_, fun address trap => ?_⟩,
    observed.planted.windowed, observed.planted.data, observed.planted.native⟩, ?_,
      observed.stopped⟩
  · rw [← there]
    exact observed.marked.trapHandled found on settled
  · exact clean.frame rfl (fun _ _ => rfl) (List.Subset.refl _)
  · obtain ⟨m, member, new, -⟩ := fresh address trap
    rw [settled m member] at new
    cases new
  · have ip : x.pastTrap .rip - 1 = x.ip := by
      rw [ProgramState.pastTrap, Function.update_self, Nat.add_sub_cancel]
    rw [Debugger.trapHandled_file, regs, ← ip]
    exact x.pastTrap_back

end Marks

theorem cont_run {status : Nat} {g : GlobalState} {w : World K}
    (applies : (forwardSignals >>= fun _ => applyChanges k).run s = .ok () t)
    (resumed : contAllAndSetBps k t.noted.globalState t.noted.world = (↑status, g, w)) :
    (cont k).run s = .ok () (t.noted.withLib g w) := by
  have succeeded : ¬ ((status : Int) < 0) := Int.not_lt.mpr (Int.natCast_nonneg status)
  have called : (callLib (contAllAndSetBps k)).run t.noted = .ok ↑status (t.noted.withLib g w) := by
    rw [callLib_run, resumed]
  rw [cont, ← bind_assoc, EStateM.run_bind, applies]
  dsimp only
  change (callLib (contAllAndSetBps k) >>= fun result =>
    raiseErrnoIf k (result < 0)).run t.noted = _
  rw [EStateM.run_bind, called]
  simp only [raiseErrnoIf, if_neg succeeded]
  rfl

section Resuming

variable {P : Processor} {accepts : UserRegs → Prop} {phase : K → Phase} {tid : Int}
  {o : Observation}

namespace Applied

variable (applied : Applied own text fresh (s.settle s.breakpoints.values) t)

include applied

/-- Applied, no change is marked any more. -/
theorem marked (marked : s.Marked o.marks) : t.Marked o.settled.marks := by
  obtain ⟨bHead, mem, rfl⟩ := applied.same
  refine marked.change (List.length_map ..) (fun i m found => ?_) rfl rfl
  rw [Observation.settled, List.getElem?_map] at found
  obtain ⟨old, there, rfl⟩ := Option.map_eq_some_iff.mp found
  refine ⟨old, there, rfl, fun carries => ?_⟩
  have filed : i ∈ s.breakpoints.values :=
    Dict.mem_values.mpr ⟨_, (marked.filed _ _).mpr ⟨old, there, rfl⟩⟩
  change ((s.settle s.breakpoints.values).objects i).Carries _
  rw [Debugger.settle_objects filed]
  exact ⟨carries.address, carries.enabled, carries.hits, carries.software, carries.callback,
    fun changed => Bool.noConfusion changed⟩

theorem counting : t.Counting := by
  obtain ⟨bHead, mem, rfl⟩ := applied.same
  intro address i filed
  have member : i ∈ s.breakpoints.values := Dict.mem_values.mpr ⟨address, filed⟩
  change ((s.settle s.breakpoints.values).objects i).disabledForStep = false
  rw [Debugger.settle_objects member]

theorem quiet (quiet : s.Lone tid) : t.Lone tid := by
  obtain ⟨bHead, mem, rfl⟩ := applied.same
  exact quiet.frame rfl

theorem threads : t.threads = s.threads := by
  obtain ⟨bHead, mem, rfl⟩ := applied.same
  rfl

theorem thread : t.globalState.files = s.globalState.files ∧ t.world.os = s.world.os := by
  obtain ⟨bHead, mem, rfl⟩ := applied.same
  exact ⟨rfl, rfl⟩

end Applied

/-- `wait` up to the handling of what it has collected -/
theorem collect_run {results : List ThreadStatus} {fuel : Nat} {g : GlobalState} {w : World K}
    (waited : waitAllAndUpdateRegs k fuel s.globalState s.world s.processId =
      (.statuses results, g, w)) :
    (collect k fuel).run s = .ok results ((s.withLib g w).noteManaged results) := by
  simp only [collect, waitResults, EStateM.run_bind, EStateM.run_get, waited]
  rfl

/-- The program is let run, and found at the next breakpoint, past the trap. -/
theorem Observed.resumes (observed : Observed own text phase tid o s)
    (executes : k.Executes P accepts tid phase) (attentive : Attentive P text accepts o .resume)
    {program : ProgramState}
    (comes : firstVisit P.execute (·.ip ∈ o.traps) (P.execute o.program) = some program)
    (fuel : Nat) :
    ∃ resumed landed, (cont k).run s = .ok () resumed ∧ resumed.threads = s.threads ∧
      (collect k (fuel + 1)).run (resumed.setResume true) =
        .ok [trapOf tid .softwareTrap] landed ∧ landed.Counting ∧
      Observed own text phase tid ⟨⟨program.pastTrap, program.mem⟩, o.settled.marks⟩ landed := by
  obtain ⟨accepted, notFresh, -, along⟩ := attentive
  obtain ⟨n, visit, rfl⟩ := firstVisit_eq_some.mp comes
  have ordinary := along n visit
  obtain ⟨changed, applies, applied, inOrder⟩ := observed.changes k
  have marked := applied.marked observed.marked
  have quiet := applied.quiet observed.quiet
  obtain ⟨files, os⟩ := applied.thread
  obtain ⟨planted, clean, new⟩ := applied.clean
  have handlers : changed.noted.globalState.handleSyscallEnabled = false := quiet.noHandlers
  obtain ⟨old, stopped⟩ : ∃ old, phase changed.noted.world.os = .stopped old :=
    os ▸ observed.stopped
  have traps (x : Nat) : x ∈ changed.noted.globalState.enabledAddrs ↔ x ∈ o.traps := by
    rw [← o.settled_traps]
    exact marked.mem_enabledAddrs inOrder o.settled_fresh x
  have there : (fun x : ProgramState => x.ip ∈ o.traps) =
      (·.ip ∈ changed.noted.globalState.enabledAddrs) := by
    funext x
    exact propext (traps x.ip).symm
  rw [there] at visit
  have noted : Session.Clean own text ⟨changed.noted.globalState, changed.noted.world, planted⟩ :=
    clean.frame rfl (fun _ _ => rfl) (List.Subset.refl _)
  obtain ⟨status, next, resumes, waits⟩ := resume_lone (g := changed.noted.globalState) executes
    quiet.nodes stopped accepted handlers ((congrFun files 0).trans observed.regs)
    observed.planted.native (applied.data.trans observed.planted.data) noted inOrder.increasing
    applied.windowed
    (fun x trap on here => notFresh ⟨here ▸ new x trap, here ▸ (traps x).mp on⟩) visit
    fun i upTo => ⟨(ordinary i upTo).1, fun x on => (ordinary i upTo).2 x ((traps x).mp on)⟩
  obtain ⟨last, waited, now, memory⟩ := waits fuel changed.processId
  set program := P.execute^[n] (P.execute o.program)
  have native : Set.EqOn program.mem own text :=
    (Processor.Ordinary.keeps_iterate (n := n + 1) fun i before =>
      (ordinary i (Nat.le_of_lt_succ before)).1).trans observed.planted.native
  refine ⟨_, _, cont_run applies resumes, applied.threads, collect_run waited, applied.counting,
    quiet.frame rfl,
    ⟨inOrder.filed, inOrder.increasing, inOrder.listed, inOrder.flags⟩, marked.frame rfl,
    .of_mem clean.words applied.windowed memory native, ?_, ⟨_, now⟩⟩
  exact Function.update_self 0 program.pastTrap changed.globalState.files

/-! ### A step -/

/-- All of the breakpoints are disabled for a step. -/
def Debugger.suspend (s : Debugger K) (bps : List Ref) : Debugger K :=
  { s with
    objects := fun bp =>
      if bp ∈ bps then { s.objects bp with disabledForStep := true } else s.objects bp }

theorem suspend_cons (s : Debugger K) (bp : Ref) (rest : List Ref) :
    (s.updateBreakpoint bp ({ · with disabledForStep := true })).suspend rest =
      s.suspend (bp :: rest) := by
  simp only [Debugger.suspend, Debugger.updateBreakpoint]
  congr 1
  funext other
  by_cases same : other = bp
  · subst same
    simp
  · simp [same]

theorem disableForStep_run (s : Debugger K) :
    (disableForStep : Py K Unit).run s = .ok () (s.suspend s.breakpoints.values) := by
  have all (bps : List Ref) (s : Debugger K) :
      (bps.forM fun bp => (modify (·.updateBreakpoint bp ({ · with disabledForStep := true })) :
        Py K Unit)).run s = .ok () (s.suspend bps) := by
    induction bps generalizing s with
    | nil =>
        have same : s.suspend [] = s := by simp [Debugger.suspend]
        rw [same]
        rfl
    | cons bp rest ih =>
        rw [← suspend_cons]
        exact ih _
  exact all s.breakpoints.values s

/-- Suspended, the breakpoints are the user's as they were. -/
theorem Debugger.Marked.suspend {marks : List Mark} (marked : s.Marked marks) (bps : List Ref) :
    (s.suspend bps).Marked marks := by
  refine marked.change rfl (fun i m found => ⟨m, found, rfl, fun carries => ?_⟩) rfl rfl
  simp only [Debugger.suspend]
  split
  · exact ⟨carries.address, carries.enabled, carries.hits, carries.software, carries.callback,
      carries.changed⟩
  · exact carries

/-- No breakpoint that is suspended counts as hit. -/
theorem suspend_inactive (s : Debugger K) (address : Nat) :
    (s.suspend s.breakpoints.values).activeBreakpoint address = none := by
  refine Option.filter_eq_none_iff.mpr fun i filed counts => ?_
  have suspended : (s.suspend s.breakpoints.values).objects i =
      { s.objects i with disabledForStep := true } :=
    if_pos (Dict.mem_values.mpr ⟨address, filed⟩)
  simp [suspended] at counts

theorem step_run {g : GlobalState} {w : World K}
    (stepped : singlestep k s.globalState s.world tid = (0, g, w)) :
    (step k tid).run s = .ok () { (s.suspend s.breakpoints.values).withLib g w with
      resumeContext := { s.resumeContext with isAStep := true } } := by
  have called : (callLib fun g w => singlestep k g w tid).run (s.suspend s.breakpoints.values) =
      .ok 0 ((s.suspend s.breakpoints.values).withLib g w) := by
    have same : singlestep k (s.suspend s.breakpoints.values).globalState
      (s.suspend s.breakpoints.values).world tid = (0, g, w) := stepped
    rw [callLib_run, same]
  simp only [step, EStateM.run_bind, disableForStep_run, called, raiseErrnoIf]
  rfl

/-- One instruction is executed, and the step is seen to be over. -/
theorem Observed.steps (observed : Observed own text phase tid o s)
    (executes : k.Executes P accepts tid phase) (u : UserCode K) (genuine : tid ≠ -1)
    (attentive : Attentive P text accepts o .step) (fuel : Nat) :
    ∃ stepped landed t, (step k tid).run s = .ok () stepped ∧ stepped.threads = s.threads ∧
      (collect k (fuel + 1)).run (stepped.setResume true) =
        .ok [trapOf tid .singleStep] landed ∧
      (manageChange k u [trapOf tid .singleStep]).run landed = .ok () t ∧
      t.resumeContext.resume = false ∧
      Observed own text phase tid { o with program := P.execute o.program } t := by
  obtain ⟨accepted, ordinary, apart⟩ := attentive
  obtain ⟨planted, clean, new⟩ := observed.planted.clean
  obtain ⟨old, stopped⟩ := observed.stopped
  obtain ⟨next, steps, waits⟩ := singlestep_lone executes observed.quiet.nodes stopped accepted
    observed.regs observed.planted.native observed.planted.data clean observed.planted.windowed
    (fun addr trap => apart addr (new addr trap)) ordinary
  obtain ⟨last, waited, now, memory⟩ := waits fuel s.processId
  set stepped : Debugger K := { (s.suspend s.breakpoints.values).withLib s.globalState next with
    resumeContext := { s.resumeContext with isAStep := true } } with afterStep
  have returned : (step k tid).run s = .ok () stepped := step_run steps
  set landed := ((stepped.setResume true).withLib
    (s.globalState.setFile 0 (P.execute o.program).regs) last).noteManaged
      [trapOf tid .singleStep] with afterWait
  have collected : (collect k (fuel + 1)).run (stepped.setResume true) =
      .ok [trapOf tid .singleStep] landed := collect_run waited
  have quiet : landed.stepEnded.Lone tid :=
    ⟨observed.quiet.nodes, observed.quiet.threads, rfl, observed.quiet.started,
      observed.quiet.nothingToForward, observed.quiet.unhandled, observed.quiet.uncaught,
      observed.quiet.unwatched⟩
  have off (x : Nat) : landed.activeBreakpoint x = none := suspend_inactive s x
  have handled := manageChange_ends (k := k) (u := u) quiet genuine rfl off
    (executes.peekuser dr6Offset now)
  have started := observed.inOrder.frame ((step_touches tid).of_ok returned) (by decide)
  have waiting : SoftwareInOrder [] landed :=
    ⟨started.filed, started.increasing, started.listed, started.flags⟩
  have inOrder := waiting.frame ((manageChange_touches [trapOf tid .singleStep]).of_ok handled)
    (by decide)
  have native := ordinary.keeps.trans observed.planted.native
  refine ⟨stepped, landed, _, returned, rfl, collected, handled, rfl, quiet.receive, inOrder,
    (observed.marked.suspend _).frame rfl, .of_mem clean.words observed.planted.windowed memory
      native, ?_, ⟨_, now⟩⟩
  exact Function.update_self 0 (P.execute o.program).regs s.globalState.files

end Resuming

end Libdebug.Ptrace
