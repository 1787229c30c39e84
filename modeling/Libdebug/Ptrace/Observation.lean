import Libdebug.Cffi.LoneThread
import Libdebug.Ptrace.Detach
import Libdebug.Ptrace.SoftwareAgreement

/-!
What the user of a debugger observes: the program, as it is whenever it comes to a breakpoint.

`observing` is the debugger as its user thinks of it. Its breakpoints are no bytes in the text but
a set of addresses, and `resume` lets the program run, untouched, until it comes to one of them.
`Observed` says when a state of the debugger is one of its.
-/

namespace Libdebug.Ptrace

open Libdebug.Foundation Libdebug.Cffi

/-! ### The debugger as the user thinks of it -/

/-- A software breakpoint -/
structure Mark where
  address : Nat
  enabled : Bool := true
  hits : Nat := 0
  /-- placed or switched since the program was last resumed; a step does not count -/
  fresh : Bool := true

/-- The program has come to an address. -/
def Mark.reached (m : Mark) (ip : Nat) : Mark :=
  { m with hits := if m.enabled ∧ m.address = ip then m.hits + 1 else m.hits, fresh := false }

/-- The program, and the breakpoints in the order in which they were placed -/
structure Observation where
  program : ProgramState
  marks : List Mark

inductive Intervention where
  | place (address : Nat)
  | enable (mark : Nat)
  | disable (mark : Nat)
  | assign (reg : Reg) (value : Nat)
  | poke (address : Nat) (value : Word)
  | step
  | resume

namespace Observation

variable (o : Observation)

/-- The addresses at which the program is to stop -/
def traps : List Nat := (o.marks.filter (·.enabled)).map (·.address)

variable {o} in
theorem mem_traps {x : Nat} : x ∈ o.traps ↔
    ∃ (i : Nat) (m : Mark), o.marks[i]? = some m ∧ m.address = x ∧ m.enabled = true := by
  simp only [traps, List.mem_map, List.mem_filter]
  constructor
  · rintro ⟨m, ⟨member, on⟩, there⟩
    obtain ⟨i, found⟩ := List.mem_iff_getElem?.mp member
    exact ⟨i, m, found, there, on⟩
  · rintro ⟨i, m, found, there, on⟩
    exact ⟨m, ⟨List.mem_of_getElem? found, on⟩, there⟩

/-- The address is that of a fresh breakpoint. -/
def Fresh (address : Nat) : Prop :=
  ∃ m ∈ o.marks, m.fresh = true ∧ m.address = address

/-- The program is let run, and no breakpoint is fresh. -/
def settled : Observation := { o with marks := o.marks.map ({ · with fresh := false }) }

theorem settled_fresh : ∀ m ∈ o.settled.marks, m.fresh = false := by
  intro m member
  obtain ⟨_, -, rfl⟩ := List.mem_map.mp member
  rfl

theorem settled_traps : o.settled.traps = o.traps := by
  simp only [settled, traps, List.filter_map, List.map_map]
  rfl

theorem settled_reached (ip : Nat) :
    o.settled.marks.map (·.reached ip) = o.marks.map (·.reached ip) := by
  simp only [settled, List.map_map]
  rfl

/-- Nothing where the program never comes to a breakpoint again -/
noncomputable def step (P : Processor) : Intervention → Option Observation
  | .place address => some { o with marks := o.marks ++ [({ address } : Mark)] }
  | .enable i => some { o with
      marks := o.marks.modify i ({ · with enabled := true, fresh := true }) }
  | .disable i => some { o with
      marks := o.marks.modify i ({ · with enabled := false, fresh := true }) }
  | .assign reg value => some { o with program :=
      { o.program with regs := Function.update o.program.regs reg value } }
  | .poke address value => some { o with program :=
      { o.program with mem := pokeWord o.program.mem address value } }
  | .step => some { o with program := P.execute o.program }
  | .resume =>
      (firstVisit P.execute (·.ip ∈ o.traps) (P.execute o.program)).map fun program =>
        { program, marks := o.marks.map (·.reached program.ip) }

end Observation

noncomputable def observing (P : Processor) : Machine Observation Intervention :=
  ⟨fun o event => o.step P event⟩

/-- What the debugger takes care of if the user does: a breakpoint is placed in the text, at an
address that has none yet and none just planted above; data only is written; no instruction is
stepped that a breakpoint has just been placed on; and the program is not resumed on a breakpoint
that has just been placed or switched on, with breakpoints on two bytes in a row, or where it
would run into an instruction with a breakpoint in its middle. -/
def Attentive (P : Processor) (text : Set Nat) (accepts : UserRegs → Prop) (o : Observation) :
    Intervention → Prop
  | .place address =>
      (∀ m ∈ o.marks, m.address ≠ address) ∧ (∀ x, Covers address x → x ∈ text) ∧
        ∀ x, o.Fresh x → address < x → address + 8 ≤ x
  | .poke address _ => ∀ x, Covers address x → x ∉ text
  | .step =>
      accepts o.program.regs ∧ P.Ordinary text o.program ∧ ∀ x, o.Fresh x → ¬ P.Fetches o.program x
  | .resume =>
      accepts o.program.regs ∧
        ¬ (o.Fresh o.program.ip ∧ o.program.ip ∈ o.traps) ∧
        (∀ address ∈ o.traps, address + 1 ∉ o.traps) ∧
        ∀ n, FirstVisit P.execute (·.ip ∈ o.traps) n (P.execute o.program) →
          ∀ i ≤ n, P.Ordinary text (P.execute^[i] o.program) ∧
            P.Unbroken o.traps (P.execute^[i] o.program)
  | _ => True

/-! ### The states of the debugger that show it -/

/-- The object of a breakpoint -/
structure Breakpoint.Carries (bp : Breakpoint) (m : Mark) : Prop where
  address : bp.address = m.address
  enabled : bp.enabled = m.enabled
  hits : bp.hitCount = m.hits
  software : bp.hardware = false
  callback : bp.callback = none
  changed : bp.changed = true → m.fresh = true

theorem Breakpoint.Carries.unchanged {bp : Breakpoint} {m : Mark} (carries : bp.Carries m)
    (settled : m.fresh = false) : bp.changed = false :=
  Bool.eq_false_of_not_eq_true fun changed =>
    Bool.noConfusion (settled.symm.trans (carries.changed changed))

variable {K : Type}

/-- The process has one thread, and nothing else is going on. -/
structure Debugger.Lone (s : Debugger K) (tid : Int) : Prop where
  nodes : s.globalState.tHead = [lone tid 0]
  threads : ∃ thread, s.threads = [thread] ∧ thread.threadId = tid ∧ thread.dead = false ∧
    thread.registerFile = 0
  notStepping : s.resumeContext.isAStep = false
  started : s.resumeContext.isStartup = false
  nothingToForward : s.resumeContext.threadsWithSignalsToForward = []
  unhandled : s.handledSyscalls = .empty
  uncaught : s.caughtSignals = .empty
  unwatched : ∃ helper, s.hardwareBpHelpers.get? tid = some helper ∧
    ∀ register, helper.breakpointRegisters register = none

/-- The breakpoints are the user's. -/
structure Debugger.Marked (s : Debugger K) (marks : List Mark) : Prop where
  created : s.nextRef = marks.length
  objects : ∀ i m, marks[i]? = some m → (s.objects i).Carries m
  filed : ∀ address i, s.breakpoints.get? address = some i ↔
    ∃ m, marks[i]? = some m ∧ m.address = address

/-- Memory is the program's, but for traps of breakpoints placed or switched since the program was
last resumed. -/
structure Debugger.Planted (s : Debugger K) (own : Memory) (text : Set Nat) (o : Observation) :
    Prop where
  clean : ∃ planted, Session.Clean own text ⟨s.globalState, s.world, planted⟩ ∧
    ∀ x ∈ planted, o.Fresh x
  windowed : Windowed text s.globalState.bHead
  data : Set.EqOn s.world.mem o.program.mem textᶜ
  native : Set.EqOn o.program.mem own text

/-- The debugger has the program and the breakpoints as they are. -/
structure Observed (own : Memory) (text : Set Nat) (phase : K → Phase) (tid : Int) (o : Observation)
    (s : Debugger K) : Prop where
  quiet : s.Lone tid
  inOrder : SoftwareInOrder [] s
  marked : s.Marked o.marks
  planted : s.Planted own text o
  regs : s.globalState.files 0 = o.program.regs
  stopped : ∃ regs, phase s.world.os = .stopped regs

variable {own : Memory} {text : Set Nat} {phase : K → Phase} {tid : Int} {o : Observation}
  {s : Debugger K}

/-- Memory that is the program's has no traps. -/
theorem Debugger.Planted.of_mem
    (words : ∀ b ∈ s.globalState.bHead, Spells own text b.addr b.instruction)
    (windowed : Windowed text s.globalState.bHead) (same : s.world.mem = o.program.mem)
    (native : Set.EqOn o.program.mem own text) : s.Planted own text o where
  clean := by
    refine ⟨[], ⟨words, fun x inText => .inl ?_⟩, fun x trap => absurd trap List.not_mem_nil⟩
    exact (congrFun same x).trans (native inText)
  windowed := windowed
  data x _ := congrFun same x
  native := native

theorem Debugger.Lone.noHandlers (quiet : s.Lone tid) :
    handleSyscallEnabled s.handledSyscalls.values = false := by
  rw [quiet.unhandled]
  rfl

namespace Observed

/-- What the user reads is what the program has, at every address without a fresh breakpoint. -/
theorem memory (observed : Observed own text phase tid o s) {x : Nat} (away : ¬ o.Fresh x) :
    s.world.mem x = o.program.mem x := by
  obtain ⟨planted, clean, fresh⟩ := observed.planted.clean
  by_cases inText : x ∈ text
  · rw [observed.planted.native inText]
    exact (clean.bytes x inText).resolve_right fun trap => away (fresh x trap.1)
  · exact observed.planted.data inText

end Observed

/-- The traps of the table are the user's once every change has been applied. -/
theorem Debugger.Marked.mem_enabledAddrs (marked : s.Marked o.marks)
    (inOrder : SoftwareInOrder [] s) (settled : ∀ m ∈ o.marks, m.fresh = false) (x : Nat) :
    x ∈ s.globalState.enabledAddrs ↔ x ∈ o.traps := by
  have flag {i : Nat} {m : Mark} (found : o.marks[i]? = some m) {b : SoftwareBreakpoint}
      (inTable : b ∈ s.globalState.bHead) (there : b.addr = m.address) :
      b.enabled = m.enabled := by
    have carries := marked.objects i m found
    have filed : s.breakpoints.get? m.address = some i := (marked.filed _ _).mpr ⟨m, found, rfl⟩
    have unchanged : (s.objects i).changed = false :=
      carries.unchanged (settled m (List.mem_of_getElem? found))
    rw [← carries.enabled]
    exact inOrder.flags i (Dict.mem_values.mpr ⟨_, filed⟩) carries.software unchanged
      List.not_mem_nil b inTable (there.trans carries.address.symm)
  rw [Observation.mem_traps, GlobalState.mem_enabledAddrs]
  constructor
  · rintro ⟨b, inTable, on, rfl⟩
    obtain ⟨i, filed, -⟩ := (inOrder.listed b.addr).mp ⟨b, inTable, rfl⟩
    obtain ⟨m, found, there⟩ := (marked.filed _ _).mp filed
    exact ⟨i, m, found, there, (flag found inTable there.symm).symm.trans on⟩
  · rintro ⟨i, m, found, rfl, on⟩
    have filed : s.breakpoints.get? m.address = some i := (marked.filed _ _).mpr ⟨m, found, rfl⟩
    obtain ⟨b, inTable, there⟩ := (inOrder.listed m.address).mpr
      ⟨i, filed, (marked.objects i m found).software⟩
    exact ⟨b, inTable, (flag found inTable there).trans on, there⟩

/-! ### Interventions that let nothing run -/

variable {k : Kernel K} {address : Nat}

theorem registerBreakpoint_windowed {g : GlobalState} {w : World K}
    (windowed : Windowed text g.bHead) (inText : ∀ x, Covers address x → x ∈ text) :
    Windowed text (registerBreakpoint g w address).1.bHead := by
  rcases registerBreakpoint_cases g w address with
    ⟨b, -, registered⟩ | ⟨b, -, rfl, -, -, registered⟩ <;> rw [registered]
  · intro entry member
    obtain ⟨old, inTable, same, -⟩ := mem_setEnabled member
    exact same ▸ windowed old inTable
  · intro entry member
    rcases mem_insertBreakpoint.mp member with rfl | old
    · exact inText
    · exact windowed entry old

/-- Registering a breakpoint changes the table, and memory in the word of the breakpoint. -/
theorem registerBreakpoint_eq (g : GlobalState) (w : World K) (address : Nat) : ∃ bHead word,
    registerBreakpoint g w address = ({ g with bHead }, w.pokedata address word) := by
  rcases registerBreakpoint_cases g w address with ⟨_, -, registered⟩ | ⟨_, -, -, -, -, registered⟩
  · exact ⟨_, _, registered⟩
  · exact ⟨_, _, registered⟩

/-- The state after a software breakpoint without a callback has been created -/
def Debugger.placed (s : Debugger K) (address : Nat) : Debugger K :=
  { (stateAfter (newBreakpoint { address, condition := none }) s).withLib
      (registerBreakpoint s.globalState s.world address).1
      (registerBreakpoint s.globalState s.world address).2 with
    breakpoints := s.breakpoints.set address s.nextRef }

theorem Debugger.Lone.breakpoint_run (quiet : s.Lone tid) (address : Nat) :
    (breakpoint k address "" false none 1 none).run s = .ok () (s.placed address) := by
  obtain ⟨thread, threads, -, alive, -⟩ := quiet.threads
  have live : (ensureAlive : Py K Unit).run s = .ok () s := by
    simp only [ensureAlive, EStateM.run_bind, EStateM.run_get, threads, List.head?_cons, alive]
    rfl
  have filed : address ∈ (s.placed address).breakpoints.keys :=
    Dict.mem_keys.mpr ⟨s.nextRef, by simp only [Debugger.placed, Dict.get?_set, if_true]⟩
  have confirmed : (confirmInserted address).run (s.placed address) =
      .ok () (s.placed address) := by
    simp only [confirmInserted, EStateM.run_bind, EStateM.run_get, filed]
    rfl
  have placed : (setBreakpoint k s.nextRef true).run
      (stateAfter (newBreakpoint { address, condition := none }) s) =
        .ok () (s.placed address) := by
    set made := stateAfter (newBreakpoint { address, condition := none }) s with creation
    have object : made.objects s.nextRef = { address, condition := none } :=
      newBreakpoint_object _ s
    have software : (made.objects s.nextRef).hardware = false := by rw [object]
    have there : (made.objects s.nextRef).address = address := by rw [object]
    have registers : (placeBreakpoint k s.nextRef true).run made = .ok () (made.withLib
        (registerBreakpoint s.globalState s.world address).1
        (registerBreakpoint s.globalState s.world address).2) := by
      simp only [placeBreakpoint, EStateM.run_bind, EStateM.run_get, software]
      rw [← there]
      rfl
    rw [setBreakpoint, EStateM.run_bind, registers]
    simp only [if_true, EStateM.run_modify, Debugger.placed, ← creation]
    exact congrArg (fun key => EStateM.Result.ok () { made.withLib
      (registerBreakpoint s.globalState s.world address).1
      (registerBreakpoint s.globalState s.world address).2 with
        breakpoints := s.breakpoints.set key s.nextRef }) there
  rw [breakpoint_eq, EStateM.run_bind, EStateM.run_bind, live]
  have made : (makeBreakpoint k { address, condition := none }).run s =
      .ok () (s.placed address) := by
    rw [makeBreakpoint, EStateM.run_bind, run_newBreakpoint]
    dsimp only
    rw [EStateM.run_bind, placed]
    exact confirmed
  exact made

theorem Debugger.Lone.frame {t : Debugger K} (quiet : s.Lone tid)
    (same : (t.globalState.tHead, t.threads, t.resumeContext, t.handledSyscalls, t.caughtSignals,
        t.hardwareBpHelpers) =
      (s.globalState.tHead, s.threads, { s.resumeContext with resume := t.resumeContext.resume },
        s.handledSyscalls, s.caughtSignals, s.hardwareBpHelpers)) :
    t.Lone tid := by
  simp only [Prod.mk.injEq] at same
  obtain ⟨nodes, threads, context, handled, caught, helpers⟩ := same
  exact ⟨nodes ▸ quiet.nodes, threads ▸ quiet.threads, context ▸ quiet.notStepping,
    context ▸ quiet.started, context ▸ quiet.nothingToForward, handled ▸ quiet.unhandled,
    caught ▸ quiet.uncaught, helpers ▸ quiet.unwatched⟩

theorem Debugger.Marked.frame {t : Debugger K} {marks : List Mark} (marked : s.Marked marks)
    (same : (t.nextRef, t.objects, t.breakpoints) = (s.nextRef, s.objects, s.breakpoints)) :
    t.Marked marks := by
  simp only [Prod.mk.injEq] at same
  obtain ⟨created, objects, filed⟩ := same
  exact ⟨created ▸ marked.created, objects ▸ marked.objects, filed ▸ marked.filed⟩

/-- Breakpoints whose objects change, and not their addresses -/
theorem Debugger.Marked.change {t : Debugger K} {marks changed : List Mark}
    (marked : s.Marked marks) (length : changed.length = marks.length)
    (same : ∀ (i : Nat) (m : Mark), changed[i]? = some m → ∃ old, marks[i]? = some old ∧
      m.address = old.address ∧ ((s.objects i).Carries old → (t.objects i).Carries m))
    (created : t.nextRef = s.nextRef) (filed : t.breakpoints = s.breakpoints) :
    t.Marked changed where
  created := by rw [created, length, marked.created]
  objects i m found := by
    obtain ⟨old, there, -, carries⟩ := same i m found
    exact carries (marked.objects i old there)
  filed x i := by
    rw [filed, marked.filed]
    constructor
    · rintro ⟨old, there, rfl⟩
      have inside : i < changed.length := length ▸ (List.getElem?_eq_some_iff.mp there).1
      obtain ⟨_, found, address, -⟩ := same i changed[i] (List.getElem?_eq_getElem inside)
      cases there.symm.trans found
      exact ⟨_, List.getElem?_eq_getElem inside, address⟩
    · rintro ⟨m, found, rfl⟩
      obtain ⟨old, there, address, -⟩ := same i m found
      exact ⟨old, there, address.symm⟩

/-- Where the elements of a list with one more at its end are -/
theorem getElem?_snoc {α : Type} {xs : List α} {last x : α} {i : Nat} :
    (xs ++ [last])[i]? = some x ↔ xs[i]? = some x ∨ i = xs.length ∧ last = x := by
  rcases Nat.lt_trichotomy i xs.length with before | rfl | after
  · simp [List.getElem?_append_left before, before.ne]
  · simp
  · have past : (xs ++ [last])[i]? = none :=
      List.getElem?_eq_none (by rw [List.length_append, List.length_singleton]; omega)
    simp [past, List.getElem?_eq_none (Nat.le_of_lt after), after.ne']

/-- A new breakpoint is the last of them. -/
theorem Debugger.Marked.placed {marks : List Mark} (marked : s.Marked marks)
    (absent : ∀ m ∈ marks, m.address ≠ address) :
    (s.placed address).Marked (marks ++ [({ address } : Mark)]) where
  created := by
    rw [List.length_append, ← marked.created]
    rfl
  objects i m found := by
    rcases getElem?_snoc.mp found with old | ⟨new, rfl⟩
    · have before : i < s.nextRef := by
        rw [marked.created]
        exact (List.getElem?_eq_some_iff.mp old).1
      have same : (s.placed address).objects i = s.objects i := Function.update_of_ne before.ne _ _
      rw [same]
      exact marked.objects i m old
    · have last : (s.placed address).objects i = { address, condition := none } := by
        rw [new, ← marked.created]
        exact newBreakpoint_object _ s
      rw [last]
      exact ⟨rfl, rfl, rfl, rfl, rfl, fun _ => rfl⟩
  filed x i := by
    have set : (s.placed address).breakpoints.get? x =
        if x = address then some s.nextRef else s.breakpoints.get? x := Dict.get?_set
    simp only [set, getElem?_snoc]
    split
    · rename_i here
      constructor
      · rintro same
        exact ⟨{ address }, .inr ⟨(Option.some.inj same).symm.trans marked.created, rfl⟩, here.symm⟩
      · rintro ⟨m, old | ⟨rfl, -⟩, there⟩
        · exact absurd (there.trans here) (absent m (List.mem_of_getElem? old))
        · rw [marked.created]
    · rename_i elsewhere
      rw [marked.filed]
      refine exists_congr fun m => and_congr_left fun there => (or_iff_left ?_).symm
      rintro ⟨-, rfl⟩
      exact elsewhere there.symm

namespace Observed

variable (observed : Observed own text phase tid o s)

include observed

theorem place (absent : ∀ m ∈ o.marks, m.address ≠ address)
    (inText : ∀ x, Covers address x → x ∈ text)
    (apart : ∀ x, o.Fresh x → address < x → address + 8 ≤ x) :
    Observed own text phase tid { o with marks := o.marks ++ [({ address } : Mark)] }
      (s.placed address) := by
  obtain ⟨bHead, word, registered⟩ := registerBreakpoint_eq s.globalState s.world address
  have nodes : (s.placed address).globalState = { s.globalState with bHead } := by
    rw [Debugger.placed, Debugger.withLib, registered]
  have world : (s.placed address).world = s.world.pokedata address word := by
    rw [Debugger.placed, Debugger.withLib, registered]
  obtain ⟨planted, clean, fresh⟩ := observed.planted.clean
  have captured : CleanCall own text ⟨s.globalState, s.world, planted⟩
      (.registerBreakpoint address) := by
    intro _ x there above below
    refine (clean.bytes x there).resolve_right fun trap => ?_
    have := apart x (fresh x trap.1) above
    omega
  have inOrder : SoftwareInOrder [] (s.placed address) := by
    have object := newBreakpoint_object { address, condition := none } s
    have made := newBreakpoint_inOrder observed.inOrder { address, condition := none }
    have table := tableAt_registerBreakpoint observed.inOrder.increasing s.world address
    have old : s.nextRef <
        (stateAfter (newBreakpoint { address, condition := none }) s).nextRef := Nat.lt_succ_self _
    refine made.insert old ?_ ?_ ?_ rfl rfl <;> rw [object]
    · exact table
    · rfl
  refine ⟨⟨?_, observed.quiet.threads, observed.quiet.notStepping, observed.quiet.started,
    observed.quiet.nothingToForward, observed.quiet.unhandled, observed.quiet.uncaught,
    observed.quiet.unwatched⟩, inOrder,
    observed.marked.placed absent, ⟨⟨address :: planted, ?_, ?_⟩, ?_, ?_, observed.planted.native⟩,
    ?_, ?_⟩
  · rw [nodes]
    exact observed.quiet.nodes
  · exact clean.registerBreakpoint captured
  · refine List.forall_mem_cons.mpr ⟨⟨{ address }, by simp, rfl, rfl⟩, fun x trap => ?_⟩
    obtain ⟨m, member, same⟩ := fresh x trap
    exact ⟨m, List.mem_append_left _ member, same⟩
  · exact registerBreakpoint_windowed observed.planted.windowed inText
  · intro x outside
    rw [world]
    exact (pokeWord_outside fun covered => outside (inText x covered)).trans
      (observed.planted.data outside)
  · rw [nodes]
    exact observed.regs
  · rw [world]
    exact observed.stopped

/-- Switching a breakpoint only marks its object. -/
theorem switch (i : Nat) (enabled : Bool) {action : Action}
    (switches : s.perform action = s.updateBreakpoint i ({ · with enabled, changed := true })) :
    Observed own text phase tid
      { o with marks := o.marks.modify i ({ · with enabled, fresh := true }) }
      (s.perform action) := by
  have inOrder := observed.inOrder.frame (perform_changes s action) (by decide)
  rw [switches] at inOrder ⊢
  have old (j : Nat) (m : Mark)
      (found : (o.marks.modify i ({ · with enabled, fresh := true }))[j]? = some m) :
      ∃ old, o.marks[j]? = some old ∧
        m = if i = j then { old with enabled, fresh := true } else old := by
    rw [List.getElem?_modify] at found
    obtain ⟨old, there, rfl⟩ := Option.map_eq_some_iff.mp found
    exact ⟨old, there, rfl⟩
  obtain ⟨planted, clean, fresh⟩ := observed.planted.clean
  refine ⟨observed.quiet.frame rfl, inOrder, observed.marked.change (List.length_modify ..)
    (fun j m found => ?_) rfl rfl, ⟨⟨planted, clean, fun x trap => ?_⟩, observed.planted.windowed,
      observed.planted.data, observed.planted.native⟩, observed.regs, observed.stopped⟩
  · obtain ⟨old, there, rfl⟩ := old j m found
    by_cases same : i = j
    · subst same
      refine ⟨old, there, by rw [if_pos rfl], fun carries => ?_⟩
      simp only [if_true, Debugger.updateBreakpoint, Function.update_self]
      exact ⟨carries.address, rfl, carries.hits, carries.software, carries.callback,
        fun _ => rfl⟩
    · refine ⟨old, there, by rw [if_neg same], fun carries => ?_⟩
      simp only [Debugger.updateBreakpoint, Function.update_of_ne (Ne.symm same), if_neg same]
      exact carries
  · obtain ⟨m, member, new, there⟩ := fresh x trap
    obtain ⟨j, found⟩ := List.mem_iff_getElem?.mp member
    refine ⟨if i = j then { m with enabled, fresh := true } else m,
      List.mem_of_getElem? (i := j) ?_, ?_, ?_⟩
    · rw [List.getElem?_modify, found]
      rfl
    · split
      · rfl
      · exact new
    · split <;> exact there

theorem assign (reg : Reg) (value : Nat) : Observed own text phase tid
    { o with program := { o.program with regs := Function.update o.program.regs reg value } }
    (s.perform (.setRegister 0 reg value)) := by
  have inOrder := observed.inOrder.frame (perform_changes s (.setRegister 0 reg value)) (by decide)
  obtain ⟨planted, clean, fresh⟩ := observed.planted.clean
  refine ⟨observed.quiet.frame rfl, inOrder, observed.marked.frame rfl,
    ⟨⟨planted, ?_, fresh⟩, observed.planted.windowed, observed.planted.data,
      observed.planted.native⟩, ?_, observed.stopped⟩
  · exact clean.frame rfl (fun _ _ => rfl) (List.Subset.refl _)
  simp only [Debugger.perform, Debugger.writeReg, GlobalState.setFile, Function.update_self,
    observed.regs]

theorem poke {value : Word} (outside : ∀ x, Covers address x → x ∉ text) :
    Observed own text phase tid
      { o with program := { o.program with mem := pokeWord o.program.mem address value } }
      (s.perform (.pokeMemory address value)) := by
  have inOrder := observed.inOrder.frame (perform_changes s (.pokeMemory address value)) (by decide)
  have untouched (mem : Memory) : Set.EqOn (pokeWord mem address value) mem text :=
    fun x inText => pokeWord_outside fun covered => outside x covered inText
  obtain ⟨planted, clean, fresh⟩ := observed.planted.clean
  refine ⟨observed.quiet.frame rfl, inOrder, observed.marked.frame rfl, ⟨⟨planted, ?_, fresh⟩,
    observed.planted.windowed, fun x outOfText => ?_,
    (untouched o.program.mem).trans observed.planted.native⟩, observed.regs, observed.stopped⟩
  · exact clean.frame rfl (untouched s.world.mem) (List.Subset.refl _)
  · by_cases covered : Covers address x
    · exact (pokeWord_inside covered).trans (pokeWord_inside covered).symm
    · exact (pokeWord_outside covered).trans
        ((observed.planted.data outOfText).trans (pokeWord_outside covered).symm)

end Observed

end Libdebug.Ptrace
