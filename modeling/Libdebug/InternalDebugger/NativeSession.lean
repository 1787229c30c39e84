import Libdebug.InternalDebugger.Stepping
import Libdebug.Ptrace.Resumption

/-!
A session of the debugger on a program with one thread.

The user intervenes, and lets the program run from breakpoint to breakpoint. Whatever the user
does, the debugger shows the program as it would be there with no debugger around: traps, stepping
over them, the thread's register file and its late write-back cannot be told.
-/

namespace Libdebug.InternalDebugger

open Libdebug.Foundation Libdebug.Cffi Libdebug.Ptrace

variable {K : Type}

/-! ### What the debugger does -/

section Interventions

variable (k : Kernel K) (u : UserCode K) (tid : Int) (fuel rounds : Nat)

/-- What is called for an intervention -/
def carryOut : Intervention → Py K Unit
  | .place address => Ptrace.breakpoint k address "" false none 1 none
  | .enable mark => modify (·.perform (.enableBreakpoint mark))
  | .disable mark => modify (·.perform (.disableBreakpoint mark))
  | .assign reg value => modify (·.perform (.setRegister 0 reg value))
  | .poke address value => modify (·.perform (.pokeMemory address value))
  | .step => InternalDebugger.step k u rounds fuel tid
  | .resume => do
      Ptrace.cont k
      threadedWait k u fuel rounds

/-- An intervention must not raise. -/
def intervening : Machine (Debugger K) Intervention where
  step s event :=
    match (carryOut k u tid fuel rounds event).run s with
    | .ok () t => some t
    | .error _ _ => none

end Interventions

/-- The registers that the user reads, the memory away from the breakpoints placed or switched since
the program was last resumed, and the breakpoints with their hits -/
structure Displays (s : Debugger K) (o : Observation) : Prop where
  regs : s.globalState.files 0 = o.program.regs
  memory : ∀ x, ¬ o.Fresh x → s.world.mem x = o.program.mem x
  breakpoints : ∀ i m, o.marks[i]? = some m → (s.objects i).address = m.address ∧
    (s.objects i).enabled = m.enabled ∧ (s.objects i).hitCount = m.hits

section Session

variable {k : Kernel K} {u : UserCode K} {P : Processor} {accepts : UserRegs → Prop} {tid : Int}
  {phase : K → Phase} {own : Memory} {text : Set Nat} {o o' : Observation} {s t : Debugger K}
  {fuel rounds : Nat} {event : Intervention}

theorem Displays.of_observed (observed : Observed own text phase tid o s) : Displays s o where
  regs := observed.regs
  memory _ away := observed.memory away
  breakpoints i m found :=
    have carries := observed.marked.objects i m found
    ⟨carries.address, carries.enabled, carries.hits⟩

/-- The loop ends with the first stop that vetoes to resume. -/
theorem threadedWait_once {batch : List ThreadStatus} {landed : Debugger K}
    (alive : ∃ thread, s.threads = [thread] ∧ thread.dead = false)
    (collected : (collect k fuel).run (s.setResume true) = .ok batch landed)
    (handled : (manageChange k u batch).run landed = .ok () t)
    (vetoed : t.resumeContext.resume = false) :
    (threadedWait k u fuel (rounds + 1)).run s = .ok () t := by
  obtain ⟨thread, threads, alive⟩ := alive
  have first : s.threads.head? = some thread := by rw [threads]; rfl
  have waited : (Ptrace.wait k u fuel).run (s.setResume true) = .ok () t := by
    rw [wait_eq, EStateM.run_bind, collected]
    exact handled
  simp only [threadedWait, EStateM.run_bind, EStateM.run_get, first, alive, Bool.false_eq_true,
    if_false, EStateM.run_modify, waited, vetoed]
  rfl

variable (u fuel rounds) in
/-- Every intervention shows the user what it does to the program. -/
theorem carryOut_observed (executes : k.Executes P accepts tid phase) (genuine : tid ≠ -1)
    (observed : Observed own text phase tid o s) (attentive : Attentive P text accepts o event)
    (stepped : o.step P event = some o') :
    ∃ t, (carryOut k u tid (fuel + 1) (rounds + 1) event).run s = .ok () t ∧
      Observed own text phase tid o' t := by
  have alive : ∃ thread, s.threads = [thread] ∧ thread.dead = false := by
    obtain ⟨thread, threads, -, alive, -⟩ := observed.quiet.threads
    exact ⟨thread, threads, alive⟩
  cases event with
  | place address =>
      cases stepped
      obtain ⟨absent, inText, apart⟩ := attentive
      exact ⟨_, observed.quiet.breakpoint_run address, observed.place absent inText apart⟩
  | enable i =>
      cases stepped
      exact ⟨_, rfl, observed.switch i true rfl⟩
  | disable i =>
      cases stepped
      exact ⟨_, rfl, observed.switch i false rfl⟩
  | assign reg value =>
      cases stepped
      exact ⟨_, rfl, observed.assign reg value⟩
  | poke address value =>
      cases stepped
      exact ⟨_, rfl, observed.poke attentive⟩
  | step =>
      cases stepped
      obtain ⟨begun, landed, t, steps, same, collected, handled, vetoed, shown⟩ :=
        observed.steps executes u genuine attentive fuel
      refine ⟨t, ?_, shown⟩
      rw [carryOut, InternalDebugger.step, EStateM.run_bind, steps]
      exact threadedWait_once (same ▸ alive) collected handled vetoed
  | resume =>
      obtain ⟨program, comes, rfl⟩ := Option.map_eq_some_iff.mp stepped
      obtain ⟨resumed, landed, continues, same, collected, counting, shown⟩ :=
        observed.resumes executes attentive comes fuel
      obtain ⟨n, visit, ended⟩ := firstVisit_eq_some.mp comes
      have trap : program.ip ∈ o.settled.traps := by
        rw [o.settled_traps, ← ended]
        exact visit.hit
      have gap : program.ip + 1 ∉ o.settled.traps := by
        obtain ⟨-, -, apart, -⟩ := attentive
        rw [o.settled_traps]
        exact apart _ (o.settled_traps ▸ trap)
      obtain ⟨t, handled, vetoed, shown⟩ :=
        shown.handles k u genuine counting o.settled_fresh trap gap
      refine ⟨t, ?_, o.settled_reached program.ip ▸ shown⟩
      rw [carryOut, EStateM.run_bind, continues]
      exact threadedWait_once (same ▸ alive) collected handled vetoed

variable (text) in
/-- The debugger has registered the only thread. -/
theorem registerNewThread_observed {world : World K} {regs : UserRegs}
    (executes : k.Executes P accepts tid phase) (stopped : phase world.os = .stopped regs) :
    ∃ s, (registerNewThread k tid).run (.initial world) = .ok () s ∧
      Observed world.mem text phase tid ⟨⟨regs, world.mem⟩, []⟩ s := by
  have reads : k.getregs world.os tid = some regs := executes.getregs stopped
  set g : GlobalState := { GlobalState.empty.setFile 0 regs with tHead := [lone tid 0], fresh := 1 }
    with table
  have registered : registerThread k .empty world tid = (0, g) := by
    simp [registerThread, GlobalState.empty, GlobalState.getregs, GlobalState.setFile, reads, lone,
      table]
  set s := ((Debugger.initial world).withLib g world).insertNewThread tid 0 with inserted
  have added : (Debugger.initial world).withThread k tid = s := by
    simp only [Debugger.withThread, Debugger.initial, registered, inserted]
  have run : (registerNewThread k tid).run (.initial world) = .ok () s := by
    rw [registerNewThread_run, added]
    rfl
  have helper : s.hardwareBpHelpers.get? tid = some {} := by
    simp [inserted, Debugger.insertNewThread, Dict.get?_set]
  refine ⟨s, run, ⟨rfl, ⟨_, rfl, rfl, rfl, rfl⟩, rfl, rfl, rfl, rfl, rfl, {}, helper, fun _ => rfl⟩,
    ?_, ⟨rfl, ?_, ?_⟩, .of_mem ?_ ?_ rfl (Set.eqOn_refl _ _), ?_, ⟨regs, stopped⟩⟩
  · have begun : SoftwareInOrder [] (Debugger.initial world) := by
      refine ⟨?_, List.Pairwise.nil, ?_, ?_⟩ <;>
        simp [Debugger.initial, Debugger.Filed, GlobalState.empty]
    exact ⟨begun.filed, begun.increasing, begun.listed, begun.flags⟩
  · exact fun i m found => absurd found (by simp)
  · intro address i
    simp [inserted, Debugger.insertNewThread, Debugger.withLib, Debugger.initial]
  · exact fun b inTable => absurd inTable List.not_mem_nil
  · exact fun b inTable => absurd inTable List.not_mem_nil
  · exact Function.update_self 0 regs GlobalState.empty.files

/-- Whatever the user does with care, the debugger shows the program as it is natively, at its
visits to the breakpoints. -/
theorem session_shows_program {world : World K} {regs : UserRegs} {events : List Intervention}
    (executes : k.Executes P accepts tid phase) (genuine : tid ≠ -1)
    (stopped : phase world.os = .stopped regs)
    (attentive : (observing P).Meets (Attentive P text accepts) ⟨⟨regs, world.mem⟩, []⟩ events)
    (reached : (observing P).run ⟨⟨regs, world.mem⟩, []⟩ events = some o) :
    ∃ s t, (registerNewThread k tid).run (.initial world) = .ok () s ∧
      (intervening k u tid (fuel + 1) (rounds + 1)).run s events = some t ∧ Displays t o := by
  obtain ⟨s, registered, observed⟩ := registerNewThread_observed text executes stopped
  obtain ⟨t, ended, shown⟩ := Machine.run_followed
    (N := intervening k u tid (fuel + 1) (rounds + 1))
    (R := fun o s => Observed world.mem text phase tid o s)
    (fun o event o' s observed attentive stepped => by
      obtain ⟨t, carried, shown⟩ :=
        carryOut_observed u fuel rounds executes genuine observed attentive stepped
      refine ⟨t, ?_, shown⟩
      simp only [intervening, carried])
    observed attentive reached
  exact ⟨s, t, registered, ended, .of_observed shown⟩

end Session

/-! ### A row of one-byte instructions -/

/-- Every instruction is one byte, and does nothing. -/
def rowProcessor : Processor where
  execute x := { x with regs := Function.update x.regs .rip (x.ip + 1) }
  extent _ := 1

/-- The program at an address of the row -/
def rowAt (ip : Nat) : ProgramState := ⟨Function.update (fun _ => 0) .rip ip, fun _ => 0x90⟩

/-- The row begins at `0x1000`. -/
def rowText : Set Nat := {x | 0x1000 ≤ x}

theorem rowAt_ip (ip : Nat) : (rowAt ip).ip = ip := by
  simp [rowAt, ProgramState.ip, instructionPointer]

theorem rowAt_execute (ip : Nat) : rowProcessor.execute (rowAt ip) = rowAt (ip + 1) := by
  simp [rowProcessor, rowAt, ProgramState.ip, instructionPointer]

theorem rowAt_iterate (ip n : Nat) : rowProcessor.execute^[n] (rowAt ip) = rowAt (ip + n) := by
  induction n with
  | zero => rfl
  | succ n ih => rw [Function.iterate_succ_apply', ih, rowAt_execute, Nat.add_assoc]

theorem rowAt_ordinary {ip : Nat} (there : 0x1000 ≤ ip) :
    rowProcessor.Ordinary rowText (rowAt ip) where
  nonempty := Nat.one_pos
  fetched addr fetches := (rowAt_ip ip ▸ there).trans fetches.1
  noTrap := by
    change ¬ (0x90 : Byte) = int3
    decide
  blind _ data _ := ⟨rfl, data, Set.eqOn_refl _ _⟩

/-- The program with a breakpoint at `0x1004` -/
def rowObserved (ip hits : Nat) (fresh : Bool) : Observation :=
  ⟨rowAt ip, [{ address := 0x1004, hits, fresh }]⟩

theorem rowObserved_visit :
    FirstVisit rowProcessor.execute (·.ip ∈ (rowObserved 0x1000 0 true).traps) 3
      (rowProcessor.execute (rowAt 0x1000)) := by
  have after (i : Nat) : (rowProcessor.execute^[i] (rowProcessor.execute (rowAt 0x1000))).ip =
      0x1001 + i := by
    rw [rowAt_execute, rowAt_iterate, rowAt_ip]
  refine ⟨?_, fun i before => ?_⟩ <;> rw [after] <;> simp [Observation.traps, rowObserved]
  omega

theorem rowObserved_attentive :
    Attentive rowProcessor rowText (fun _ => True) (rowObserved 0x1000 0 true) .resume := by
  refine ⟨trivial, fun both => ?_, by decide, fun n visit i upTo => ?_⟩
  · obtain ⟨-, trap⟩ := both
    simp [rowObserved, Observation.traps, rowAt_ip] at trap
  · have there : rowProcessor.execute^[i] (rowObserved 0x1000 0 true).program =
        rowAt (0x1000 + i) := rowAt_iterate 0x1000 i
    rw [there]
    refine ⟨rowAt_ordinary (Nat.le_add_right _ _), fun addr _ fetched => ?_⟩
    exact Nat.le_antisymm (Nat.le_of_lt_succ fetched.2) fetched.1

/-- Placed four instructions ahead, a breakpoint is hit when the program is let run, and stepped
off without being noticed. -/
theorem row_shows_program : ∃ s t,
    (registerNewThread (Kernel.running rowProcessor 1) 1).run
        (.initial ⟨(rowAt 0x1000).mem, .stopped (rowAt 0x1000).regs, []⟩) = .ok () s ∧
      (intervening (Kernel.running rowProcessor 1) idle 1 1 1).run s
        [.place 0x1004, .resume, .step] = some t ∧
      Displays t (rowObserved 0x1005 1 false) := by
  have placed : (observing rowProcessor).step ⟨rowAt 0x1000, []⟩ (.place 0x1004) =
      some (rowObserved 0x1000 0 true) := rfl
  have resumed : (observing rowProcessor).step (rowObserved 0x1000 0 true) .resume =
      some (rowObserved 0x1004 1 false) := by
    have comes : firstVisit rowProcessor.execute (·.ip ∈ (rowObserved 0x1000 0 true).traps)
        (rowProcessor.execute (rowAt 0x1000)) = some (rowAt 0x1004) :=
      firstVisit_eq_some.mpr ⟨3, rowObserved_visit, rowAt_iterate 0x1000 4⟩
    have found : (observing rowProcessor).step (rowObserved 0x1000 0 true) .resume = _ :=
      congrArg (Option.map _) comes
    rw [found]
    simp [rowObserved, Mark.reached, rowAt_ip]
  have stepped : (observing rowProcessor).step (rowObserved 0x1004 1 false) .step =
      some (rowObserved 0x1005 1 false) := by
    change some { rowObserved 0x1004 1 false with
      program := rowProcessor.execute (rowAt 0x1004) } = _
    rw [rowAt_execute]
    rfl
  have attentive : (observing rowProcessor).Meets (Attentive rowProcessor rowText fun _ => True)
      ⟨rowAt 0x1000, []⟩ [.place 0x1004, .resume, .step] := by
    refine Machine.meets_cons.mpr ⟨⟨by simp, fun x covers => ?_, by simp [Observation.Fresh]⟩, ?_⟩
    · exact Nat.le_trans (by decide : 0x1000 ≤ 0x1004) covers.1
    rintro _ ⟨⟩
    refine Machine.meets_cons.mpr ⟨rowObserved_attentive, fun next same => ?_⟩
    obtain rfl := Option.some.inj (resumed.symm.trans same)
    refine Machine.meets_cons.mpr ⟨⟨trivial, rowAt_ordinary (by decide), ?_⟩, fun _ _ => trivial⟩
    rintro x ⟨m, member, fresh, -⟩
    obtain rfl := List.mem_singleton.mp member
    cases fresh
  have reached : (observing rowProcessor).run ⟨rowAt 0x1000, []⟩ [.place 0x1004, .resume, .step] =
      some (rowObserved 0x1005 1 false) :=
    (Machine.run_cons placed).trans ((Machine.run_cons resumed).trans (Machine.run_cons stepped))
  exact session_shows_program Kernel.running_executes (by decide) rfl attentive reached

end Libdebug.InternalDebugger
