import Libdebug.Cffi.Processor

/-!
The C layer with one thread, on a kernel that runs a program.

`cont_all_and_set_bps` steps the thread over a breakpoint at its instruction pointer and lets it
run in the armed text; the wait that follows finds it at the first trap, takes the traps out of
memory and leaves the registers in the file as they were read, with the instruction pointer past
the trap.
-/

namespace Libdebug.Cffi

open Libdebug.Foundation

variable {K : Type}

/-- What the thread is doing. -/
inductive Phase where
  | stopped (regs : UserRegs)
  | stepping (regs : UserRegs)
  | running (regs : UserRegs)

/-- A stop by `SIGTRAP` -/
def trapStatus : Nat := 0x057f

/-- The kernel runs the program on one thread, to which no signal is sent: a step is one
instruction, and without steps the thread runs until it has executed a trap. -/
structure Kernel.Executes (k : Kernel K) (P : Processor) (accepts : UserRegs → Prop) (tid : Int)
    (phase : K → Phase) : Prop where
  getregs : ∀ {os regs}, phase os = .stopped regs → k.getregs os tid = some regs
  peekuser : ∀ {os regs} offset, phase os = .stopped regs → (k.peekuser os tid offset).isSome
  setregs : ∀ {os old regs}, phase os = .stopped old → accepts regs →
    ∃ os', k.setregs os tid regs = some os' ∧ phase os' = .stopped regs
  singlestep : ∀ {os regs} mem, phase os = .stopped regs →
    ∃ os', k.singlestep mem os tid 0 = some (mem, os') ∧ phase os' = .stepping regs
  cont : ∀ {os regs} mem, phase os = .stopped regs →
    ∃ os', k.cont mem os false tid 0 = some (mem, os') ∧ phase os' = .running regs
  stepped : ∀ {os} {x : ProgramState} {target},
    (target = .thread tid ∨ ∃ pid, target = .group pid) → phase os = .stepping x.regs → ¬ x.AtTrap →
    ∃ os', k.waitpid x.mem os target false =
      (some ⟨tid, trapStatus, .singleStep⟩, (P.execute x).mem, os') ∧
      phase os' = .stopped (P.execute x).regs
  trapped : ∀ {os} {x : ProgramState} {n} pid, phase os = .running x.regs →
    FirstVisit P.execute ProgramState.AtTrap n x →
    ∃ os', k.waitpid x.mem os (.group pid) false =
      (some ⟨tid, trapStatus, .softwareTrap⟩, (P.execute^[n] x).mem, os') ∧
      phase os' = .stopped (P.execute^[n] x).pastTrap
  drained : ∀ {os regs} mem pid, phase os = .stopped regs →
    ∃ os', k.waitpid mem os (.group pid) true = (none, mem, os') ∧ phase os' = .stopped regs

/-- A kernel that does nothing but run the program -/
noncomputable def Kernel.running (P : Processor) (tid : Int) : Kernel Phase where
  errno _ := 0
  getregs
    | .stopped regs, id => if id = tid then some regs else none
    | _, _ => none
  setregs
    | .stopped _, id, regs => if id = tid then some (.stopped regs) else none
    | _, _, _ => none
  peekuser _ _ _ := some 0
  pokeuser os _ _ _ := some os
  geteventmsg _ _ := 0
  singlestep
    | mem, .stopped regs, _, _ => some (mem, .stepping regs)
    | _, _, _, _ => none
  cont
    | mem, .stopped regs, _, _, _ => some (mem, .running regs)
    | _, _, _, _, _ => none
  tgkill os _ _ _ := os
  waitpid
    | mem, .stepping regs, _, false =>
        (some ⟨tid, trapStatus, .singleStep⟩, (P.execute ⟨regs, mem⟩).mem,
          .stopped (P.execute ⟨regs, mem⟩).regs)
    | mem, .running regs, _, false =>
        match firstVisit P.execute ProgramState.AtTrap ⟨regs, mem⟩ with
        | some x => (some ⟨tid, trapStatus, .softwareTrap⟩, x.mem, .stopped x.pastTrap)
        | none => (none, mem, .running regs)
    | mem, os, _, _ => (none, mem, os)

theorem Kernel.running_executes {P : Processor} {tid : Int} :
    (Kernel.running P tid).Executes P (fun _ => True) tid fun os => os where
  getregs {os regs} (stopped : os = _) := by
    subst stopped
    exact if_pos rfl
  peekuser _ _ := rfl
  setregs {os old regs} (stopped : os = _) _ := by
    subst stopped
    exact ⟨_, if_pos rfl, rfl⟩
  singlestep {os regs} mem (stopped : os = _) := by
    subst stopped
    exact ⟨_, rfl, rfl⟩
  cont {os regs} mem (stopped : os = _) := by
    subst stopped
    exact ⟨_, rfl, rfl⟩
  stepped {os x target} _ (stepping : os = _) _ := by
    subst stepping
    exact ⟨_, rfl, rfl⟩
  trapped {os x n} pid (goes : os = _) visit := by
    subst goes
    have found : firstVisit P.execute ProgramState.AtTrap x = some (P.execute^[n] x) :=
      firstVisit_eq_some.mpr ⟨n, visit, rfl⟩
    refine ⟨_, ?_, rfl⟩
    simp only [Kernel.running, found]
  drained {os regs} mem pid (stopped : os = _) := by
    subst stopped
    exact ⟨_, rfl, rfl⟩

/-- The only thread of the list, which has no signal to be forwarded -/
def lone (tid : Int) (file : Ptr) : Thread := ⟨tid, file, 0⟩

variable {k : Kernel K} {P : Processor} {accepts : UserRegs → Prop} {tid : Int}
  {phase : K → Phase} {g : GlobalState} {w : World K} {file : Ptr} {old : UserRegs}

/-! ### Resuming -/

section Resuming

variable (executes : k.Executes P accepts tid phase) (alone : g.tHead = [lone tid file])
  (stopped : phase w.os = .stopped old)

include executes alone stopped

theorem flushRegs_lone (accepted : accepts (g.files file)) :
    ∃ os, flushRegs k g w = { w with os } ∧ phase os = .stopped (g.files file) := by
  obtain ⟨os, written, now⟩ := executes.setregs stopped accepted
  refine ⟨os, ?_, now⟩
  simp [flushRegs, alone, lone, World.setregs, written]

omit alone in
/-- A step is one instruction. -/
theorem step_lone {x : ProgramState} (regs : old = x.regs) (mem : w.mem = x.mem)
    (clear : ¬ x.AtTrap) (site : WaitSite) (status : Nat) :
    ∃ stepped next, w.singlestep k tid 0 = (true, stepped) ∧
      waitStatus k site tid status stepped = (trapStatus, next) ∧
      next.mem = (P.execute x).mem ∧ phase next.os = .stopped (P.execute x).regs := by
  obtain ⟨os, started, stepping⟩ := executes.singlestep w.mem stopped
  rw [regs] at stepping
  obtain ⟨os', waited, now⟩ := executes.stepped (.inl rfl) stepping clear
  rw [← mem] at waited
  set stepped := ({ w with os } : World K).record (.stepped tid 0 w.mem) with afterStep
  refine ⟨stepped, ({ stepped with mem := (P.execute x).mem, os := os' } : World K).record
    (.reaped site ⟨tid, trapStatus, .singleStep⟩), ?_, ?_, rfl, now⟩
  · simp only [World.singlestep, started, afterStep]
  · have same : k.waitpid stepped.mem stepped.os (.thread tid) false = _ := waited
    simp only [waitStatus, World.waitpid, same]

/-- The thread is stepped over a breakpoint at its instruction pointer. -/
theorem stepOver_lone {x : ProgramState} (regs : old = x.regs) (mem : w.mem = x.mem)
    (there : g.files file = x.regs) (clear : hitsBreakpoint g.bHead x.ip → ¬ x.AtTrap) :
    ∃ status next, stepOver k g g.tHead 0 w = (some status, next) ∧
      let y := if hitsBreakpoint g.bHead x.ip then P.execute x else x
      next.mem = y.mem ∧ phase next.os = .stopped y.regs := by
  have ip : g.ip (lone tid file) = x.ip := congrArg instructionPointer there
  rw [alone]
  by_cases hit : hitsBreakpoint g.bHead x.ip
  · obtain ⟨w₁, next, steps, waits, now⟩ :=
      step_lone executes stopped regs mem (clear hit) .prepareForRun 0
    refine ⟨trapStatus, next, ?_, ?_⟩
    · simp only [stepOver, ip, hit, if_true]
      simp only [lone, steps, waits]
      rw [if_neg (by decide)]
    · rw [if_pos hit]
      exact now
  · refine ⟨0, w, ?_, ?_⟩
    · simp only [stepOver, ip, hit]
      rfl
    · rw [if_neg hit]
      exact ⟨mem, regs ▸ stopped⟩

/-- The thread runs in the armed text. -/
theorem contAllAndSetBps_lone {x : ProgramState} (accepted : accepts x.regs)
    (quiet : g.handleSyscallEnabled = false) (mem : w.mem = x.mem)
    (there : g.files file = x.regs) (clear : hitsBreakpoint g.bHead x.ip → ¬ x.AtTrap) :
    ∃ (status : Nat) (next : World K), contAllAndSetBps k g w = (↑status, g, next) ∧
      let y := if hitsBreakpoint g.bHead x.ip then P.execute x else x
      phase next.os = .running y.regs ∧ next.mem =
        pokeAll ((g.bHead.filter (·.enabled)).map fun b => (b.addr, b.patchedInstruction))
          y.mem := by
  obtain ⟨os, flushed, written⟩ := flushRegs_lone executes alone stopped (there ▸ accepted)
  obtain ⟨status, w₁, stepsOver, memory, now⟩ := stepOver_lone (w := { w with os }) executes alone
    written there mem there clear
  set y := if hitsBreakpoint g.bHead x.ip then P.execute x else x
  obtain ⟨os', continued, running⟩ := executes.cont (armBreakpoints g w₁).mem now
  have prepared : prepareForRun k g w = (↑status, armBreakpoints g w₁) := by
    simp only [prepareForRun, flushed, stepsOver]
  have unchanged :
      { g with tHead := g.tHead.map fun t => { t with signalToForward := 0 } } = g := by
    rw [alone]
    exact congrArg (fun tHead => { g with tHead }) alone.symm
  have continues : (armBreakpoints g w₁).cont k false tid 0 =
      ({ armBreakpoints g w₁ with os := os' } : World K).record
        (.resumed tid 0 (armBreakpoints g w₁).mem) := by
    have sameOs : (armBreakpoints g w₁).os = w₁.os := by rw [armBreakpoints_eq]
    simp only [World.cont, sameOs, continued]
  refine ⟨status, (armBreakpoints g w₁).cont k false tid 0, ?_, ?_, ?_⟩
  · simp only [contAllAndSetBps, prepared, unchanged]
    rw [alone, quiet]
    rfl
  · rw [continues]
    exact running
  · rw [continues, World.record_mem, armBreakpoints_eq, memory]

end Resuming

/-! ### Waiting -/

/-- The wait collects the stop of the thread, and that is all there is to collect. -/
theorem waitAllAndUpdateRegs_lone (executes : k.Executes P accepts tid phase)
    (alone : g.tHead = [lone tid file]) {status : Nat} {cause : StopCause} {mem : Memory} {os : K}
    {regs : UserRegs} {pid : Int}
    (waited : k.waitpid w.mem w.os (.group pid) false = (some ⟨tid, status, cause⟩, mem, os))
    (now : phase os = .stopped regs) (fuel : Nat) :
    ∃ next, waitAllAndUpdateRegs k (fuel + 1) g w pid =
        (.statuses [⟨tid, status, cause⟩], g.setFile file regs, next) ∧
      phase next.os = .stopped regs ∧ next.mem =
        pokeAll ((g.bHead.filter (·.enabled)).map fun b => (b.addr, b.instruction)) mem := by
  obtain ⟨os', drained, still⟩ := executes.drained mem pid now
  set reported := ({ w with mem, os } : World K).record
    (.reaped .waitAllAndUpdateRegs ⟨tid, status, cause⟩) with afterStop
  have waits : w.waitpid k .waitAllAndUpdateRegs (.group pid) false =
      (some ⟨tid, status, cause⟩, reported) := by
    simp only [World.waitpid, waited, afterStop]
  have drains : drainStatuses k pid (fuel + 1) [⟨tid, status, cause⟩] reported =
      (some [⟨tid, status, cause⟩], { reported with os := os' }) := by
    have same : k.waitpid reported.mem reported.os (.group pid) true = _ := drained
    simp only [drainStatuses, World.waitpid, same]
    rfl
  have reads : k.getregs os' tid = some regs := executes.getregs still
  refine ⟨restoreBreakpoints g { reported with os := os' }, ?_, ?_⟩
  · simp only [waitAllAndUpdateRegs, waits, alone, interruptThreads, lone, if_true, drains,
      List.foldl_cons, List.foldl_nil, GlobalState.getregs, reads]
    rfl
  · rw [restoreBreakpoints_eq]
    exact ⟨still, rfl⟩

/-! ### The text -/

section Text

variable {text : Set Nat} {own : Memory} {planted : List Nat} {x : ProgramState}

/-- The words of the breakpoints lie in the text. -/
def Windowed (text : Set Nat) (bHead : List SoftwareBreakpoint) : Prop :=
  ∀ b ∈ bHead, ∀ addr, Covers b.addr addr → addr ∈ text

theorem Windowed.enabled (windowed : Windowed text g.bHead) :
    ∀ addr ∈ g.enabledAddrs, addr ∈ text := by
  intro addr on
  obtain ⟨b, inTable, -, rfl⟩ := GlobalState.mem_enabledAddrs.mp on
  exact windowed b inTable _ ⟨Nat.le_refl _, by omega⟩

/-- Arming and restoring leave everything else alone. -/
theorem Windowed.pokeAll (windowed : Windowed text g.bHead) (word : SoftwareBreakpoint → Word)
    (mem : Memory) :
    Set.EqOn (pokeAll ((g.bHead.filter (·.enabled)).map fun b => (b.addr, word b)) mem) mem
      textᶜ := by
  intro addr outside
  refine pokeAll_outside (fun write written covered => outside ?_) mem
  obtain ⟨b, member, rfl⟩ := List.mem_map.mp written
  exact windowed b (List.mem_of_mem_filter member) addr covered

/-- Armed, the text has the traps of the table, and otherwise it is the program's own. -/
theorem armed_text (clean : Session.Clean own text ⟨g, w, planted⟩)
    (increasing : Increasing g.bHead) {mem : Memory} (same : Set.EqOn mem w.mem text) :
    Set.EqOn (Foundation.pokeAll ((g.bHead.filter (·.enabled)).map fun b =>
      (b.addr, b.patchedInstruction)) mem) (armed own g.enabledAddrs) text := by
  intro addr inText
  have moved : Session.Clean own text ⟨g, { w with mem }, planted⟩ :=
    clean.frame rfl same (List.Subset.refl _)
  have arms := armBreakpoints_eq g { w with mem }
  have byte : (armBreakpoints g { w with mem }).mem addr = armed own g.enabledAddrs addr := by
    rw [armed]
    split
    · rename_i on
      obtain ⟨b, member, enabled, rfl⟩ := GlobalState.mem_enabledAddrs.mp on
      exact armBreakpoints_int3 increasing member enabled
    · rename_i off
      exact (moved.arm.bytes addr inText).resolve_right fun trap => off trap.2
  rw [arms] at byte
  exact byte

/-- Restored, it is the program's own. -/
theorem restored_text (clean : Session.Clean own text ⟨g, w, planted⟩) :
    Set.EqOn (Foundation.pokeAll ((g.bHead.filter (·.enabled)).map fun b =>
      (b.addr, b.instruction)) w.mem) own text := by
  have restored := clean.restore
  rw [restoreBreakpoints_eq] at restored
  exact restored

/-- The program's words are those of the table, whatever traps of it the text has. -/
theorem clean_armed (clean : Session.Clean own text ⟨g, w, planted⟩) {mem : Memory}
    (traps : Set.EqOn mem (armed own g.enabledAddrs) text) :
    Session.Clean own text ⟨g, { w with mem }, g.enabledAddrs⟩ := by
  refine ⟨clean.words, fun addr inText => ?_⟩
  by_cases on : addr ∈ g.enabledAddrs
  · exact .inr ⟨on, on⟩
  · exact .inl ((traps inText).trans (if_neg on))

/-- Once the traps are taken out, memory is the program's. -/
theorem restored_mem (windowed : Windowed text g.bHead)
    (clean : Session.Clean own text ⟨g, w, planted⟩) {y : ProgramState}
    (native : Set.EqOn y.mem own text) (data : Set.EqOn w.mem y.mem textᶜ) :
    Foundation.pokeAll ((g.bHead.filter (·.enabled)).map fun b => (b.addr, b.instruction)) w.mem =
      y.mem := by
  funext addr
  by_cases inText : addr ∈ text
  · exact (restored_text clean inText).trans (native inText).symm
  · exact (windowed.pokeAll _ _ inText).trans (data inText)

section Intact

variable (clean : Session.Clean own text ⟨g, w, planted⟩) (native : Set.EqOn x.mem own text)
  (ordinary : P.Ordinary text x)
  (apart : ∀ addr ∈ planted, addr ∈ g.enabledAddrs → ¬ P.Fetches x addr)

include clean native ordinary apart

/-- With no trap in it, the next instruction is the program's own. -/
theorem intact_instruction : ∀ addr, P.Fetches x addr → w.mem addr = x.mem addr := by
  intro addr fetched
  have inText := ordinary.fetched addr fetched
  rw [native inText]
  exact (clean.bytes addr inText).resolve_right fun trap =>
    apart addr trap.1 trap.2 fetched

theorem not_atTrap : ¬ (⟨x.regs, w.mem⟩ : ProgramState).AtTrap := fun trapped =>
  ordinary.noTrap ((intact_instruction clean native ordinary apart _ ordinary.fetches_ip).symm.trans
    trapped)

end Intact

/-! ### From one stop to the next -/

/-- The thread stops where the program comes to a breakpoint next, as the program is then. -/
theorem resume_lone (executes : k.Executes P accepts tid phase) (alone : g.tHead = [lone tid file])
    (stopped : phase w.os = .stopped old) (accepted : accepts x.regs)
    (quiet : g.handleSyscallEnabled = false) (there : g.files file = x.regs)
    (native : Set.EqOn x.mem own text) (data : Set.EqOn w.mem x.mem textᶜ)
    (clean : Session.Clean own text ⟨g, w, planted⟩) (increasing : Increasing g.bHead)
    (windowed : Windowed text g.bHead)
    (fresh : ∀ addr ∈ planted, addr ∈ g.enabledAddrs → addr ≠ x.ip) {n : Nat}
    (visit : FirstVisit P.execute (·.ip ∈ g.enabledAddrs) n (P.execute x))
    (ordinary : ∀ i ≤ n, P.Ordinary text (P.execute^[i] x) ∧
      P.Unbroken g.enabledAddrs (P.execute^[i] x)) :
    ∃ (status : Nat) (next : World K), contAllAndSetBps k g w = (↑status, g, next) ∧
      ∀ fuel pid, ∃ last, waitAllAndUpdateRegs k (fuel + 1) g next pid =
        (.statuses [⟨tid, trapStatus, .softwareTrap⟩],
          g.setFile file (P.execute^[n] (P.execute x)).pastTrap, last) ∧
        phase last.os = .stopped (P.execute^[n] (P.execute x)).pastTrap ∧
        last.mem = (P.execute^[n] (P.execute x)).mem := by
  obtain ⟨here, unbroken⟩ := ordinary 0 (Nat.zero_le n)
  have apart addr (trap : addr ∈ planted) (on : addr ∈ g.enabledAddrs) : ¬ P.Fetches x addr :=
    fun fetched => fresh addr trap on (unbroken addr on fetched)
  have intact := intact_instruction clean native here apart
  set real : ProgramState := ⟨x.regs, w.mem⟩ with asFound
  have found : x.Patched text w.mem real := ⟨rfl, data, Set.eqOn_refl _ _⟩
  have clear : ¬ real.AtTrap := not_atTrap clean native here apart
  obtain ⟨status, next, resumed, running, memory⟩ := contAllAndSetBps_lone executes alone stopped
    (x := real) accepted quiet rfl there fun _ => clear
  -- the program as it is when it is let run, and how long it runs
  obtain ⟨start, m, before, runs, visits, ordinaryRun, nativeStart⟩ :
      ∃ (start : ProgramState) (m : Nat), start.Patched text w.mem
          (if hitsBreakpoint g.bHead real.ip then P.execute real else real) ∧
        P.execute^[m] start = P.execute^[n] (P.execute x) ∧
        FirstVisit P.execute (·.ip ∈ g.enabledAddrs) m start ∧
        (∀ i < m, P.Ordinary text (P.execute^[i] start) ∧
          P.Unbroken g.enabledAddrs (P.execute^[i] start)) ∧ Set.EqOn start.mem own text := by
    by_cases hit : hitsBreakpoint g.bHead real.ip
    · rw [if_pos hit]
      exact ⟨P.execute x, n, found.execute here intact, rfl, visit,
        fun i short => ordinary (i + 1) short, here.keeps.trans native⟩
    · rw [if_neg hit]
      refine ⟨x, n + 1, found, rfl, visit.succ fun on => hit ?_,
        fun i short => ordinary i (Nat.le_of_lt_succ short), native⟩
      obtain ⟨b, inTable, -, same⟩ := GlobalState.mem_enabledAddrs.mp on
      exact List.any_eq_true.mpr ⟨b, inTable, decide_eq_true same⟩
  set letGo := if hitsBreakpoint g.bHead real.ip then P.execute real else real
  have patched : start.Patched text (armed own g.enabledAddrs) ⟨letGo.regs, next.mem⟩ := by
    rw [memory]
    exact ⟨before.regs, (windowed.pokeAll _ _).trans before.data,
      armed_text clean increasing before.text⟩
  obtain ⟨trapped, ended, nativeEnd⟩ :=
    firstVisit_armed windowed.enabled visits nativeStart ordinaryRun patched
  rw [runs] at ended nativeEnd
  have ip : (P.execute^[m] ⟨letGo.regs, next.mem⟩).pastTrap =
      (P.execute^[n] (P.execute x)).pastTrap := by
    rw [ProgramState.pastTrap, ProgramState.pastTrap, ProgramState.ip, ProgramState.ip, ended.regs]
  refine ⟨status, next, resumed, fun fuel pid => ?_⟩
  obtain ⟨os, trap, now⟩ := executes.trapped (x := ⟨letGo.regs, next.mem⟩) pid running trapped
  obtain ⟨last, waited, now, final⟩ := waitAllAndUpdateRegs_lone executes alone trap now fuel
  rw [ip] at waited now
  refine ⟨last, waited, now, ?_⟩
  exact final.trans (restored_mem windowed (clean_armed clean ended.text) nativeEnd ended.data)

/-- A step is one instruction of the program. -/
theorem singlestep_lone (executes : k.Executes P accepts tid phase)
    (alone : g.tHead = [lone tid file]) (stopped : phase w.os = .stopped old)
    (accepted : accepts x.regs) (there : g.files file = x.regs)
    (native : Set.EqOn x.mem own text) (data : Set.EqOn w.mem x.mem textᶜ)
    (clean : Session.Clean own text ⟨g, w, planted⟩) (windowed : Windowed text g.bHead)
    (fresh : ∀ addr ∈ planted, ¬ P.Fetches x addr) (ordinary : P.Ordinary text x) :
    ∃ next : World K, singlestep k g w tid = (0, g, next) ∧
      ∀ fuel pid, ∃ last, waitAllAndUpdateRegs k (fuel + 1) g next pid =
        (.statuses [⟨tid, trapStatus, .singleStep⟩], g.setFile file (P.execute x).regs, last) ∧
        phase last.os = .stopped (P.execute x).regs ∧ last.mem = (P.execute x).mem := by
  have apart addr (trap : addr ∈ planted) (_ : addr ∈ g.enabledAddrs) : ¬ P.Fetches x addr :=
    fresh addr trap
  have intact := intact_instruction clean native ordinary apart
  set real : ProgramState := ⟨x.regs, w.mem⟩
  have found : x.Patched text w.mem real := ⟨rfl, data, Set.eqOn_refl _ _⟩
  have ended := found.execute ordinary intact
  have clear : ¬ real.AtTrap := not_atTrap clean native ordinary apart
  obtain ⟨os, flushed, written⟩ := flushRegs_lone executes alone stopped (there ▸ accepted)
  rw [there] at written
  obtain ⟨os', started, stepping⟩ := executes.singlestep w.mem written
  set next := ({ w with os := os' } : World K).record (.stepped tid 0 w.mem) with afterStep
  have none : takeSignal tid [lone tid file] 0 = (0, [lone tid file]) := by
    simp [takeSignal, lone]
  refine ⟨next, ?_, fun fuel pid => ?_⟩
  · have unchanged : { g with tHead := [lone tid file] } = g :=
      congrArg (fun tHead => { g with tHead }) alone.symm
    simp only [singlestep, flushed, alone, none, World.singlestep, started, afterStep, if_true,
      unchanged]
  obtain ⟨os', stepped, now⟩ := executes.stepped (x := real) (.inr ⟨pid, rfl⟩) stepping clear
  obtain ⟨last, waited, now, final⟩ := waitAllAndUpdateRegs_lone (w := next) executes alone stepped
    now fuel
  rw [ended.regs] at waited now
  refine ⟨last, waited, now, ?_⟩
  have kept : Session.Clean own text ⟨g, { w with mem := (P.execute real).mem }, planted⟩ :=
    clean.frame rfl ended.text (List.Subset.refl _)
  exact final.trans (restored_mem windowed kept (ordinary.keeps.trans native) ended.data)

end Text

end Libdebug.Cffi
