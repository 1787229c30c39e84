import Libdebug.Ptrace.BreakpointHits
import Libdebug.Ptrace.Managers

/-!
The causes of a `SIGTRAP`, and the breakpoint it is put down to. Several breakpoints may be
responsible for one stop, and none for the stop at a ptrace event; the handler takes one
breakpoint at most, by the addresses first and by the lowest bit of `DR6` after them.
-/

namespace Libdebug.Ptrace

open Libdebug.Foundation Libdebug.Cffi

variable {K : Type} {k : Kernel K} {u : UserCode K}

/-- What the kernel knows of a stop with `SIGTRAP`. -/
structure TrapStop where
  /-- a ptrace event: clone, fork, exec or exit -/
  event : Bool
  /-- the byte in front of the instruction pointer is the `0xCC` of a breakpoint, and has been
  executed -/
  executed : Bool
  ip : Nat
  dr6 : Nat

/-- `DR6` names the register. -/
def BitSet (dr6 : Nat) : DebugReg → Prop
  | .dr0 => dr6 &&& 0x1 ≠ 0
  | .dr1 => dr6 &&& 0x2 ≠ 0
  | .dr2 => dr6 &&& 0x4 ≠ 0
  | .dr3 => dr6 &&& 0x8 ≠ 0

section Responsibility

variable (s : Debugger K) (helper : HardwareBreakpointManager) (stop : TrapStop)

/-- The software breakpoint that was executed -/
def Executed (bp : Ref) : Prop :=
  stop.executed = true ∧ (beforeTrap stop.ip).bind s.breakpoints.get? = some bp ∧
    (s.objects bp).hardware = false

/-- The execute breakpoint, or the enabled watchpoint, of a register that `DR6` names -/
def Marked (bp : Ref) : Prop :=
  ∃ register, BitSet stop.dr6 register ∧ helper.breakpointRegisters register = some bp ∧
    ((s.objects bp).condition = some "x" ∨
      ((s.objects bp).enabled = true ∧
        ((s.objects bp).condition = some "w" ∨ (s.objects bp).condition = some "rw")))

def Responsible (bp : Ref) : Prop :=
  stop.event = false ∧ (Executed s stop bp ∨ Marked s helper stop bp)

/-- The active breakpoint at the instruction pointer, or else the one in front of it -/
def addressHit : Option Ref :=
  s.activeBreakpoint stop.ip <|> (beforeTrap stop.ip).bind s.activeBreakpoint

/-- The watchpoint in the register of the lowest bit -/
def lowestWatchpoint : Option Ref :=
  ((hitDebugReg stop.dr6).bind helper.breakpointRegisters).filter fun bp =>
    (s.objects bp).condition ≠ some "x"

/-- Every breakpoint has a hit more if it is responsible for the stop, and as many as before if
it is not. -/
def CreditsCauses (k : Kernel K) (u : UserCode K) (threadId : Int) : Prop :=
  ∀ bp, (Responsible s helper stop bp →
      ((stateAfter (handleBreakpoints k u threadId) s).objects bp).hitCount =
        (s.objects bp).hitCount + 1) ∧
    (¬ Responsible s helper stop bp →
      ((stateAfter (handleBreakpoints k u threadId) s).objects bp).hitCount =
        (s.objects bp).hitCount)

/-- The stops whose causes the handler finds -/
structure SingleCause : Prop where
  /-- no two breakpoints are responsible -/
  single : ∀ bp other, Responsible s helper stop bp → Responsible s helper stop other → bp = other
  /-- the breakpoint that the addresses lead to is responsible -/
  atAddress : ∀ bp, addressHit s stop = some bp → Responsible s helper stop bp
  /-- where they lead to none, the lowest watchpoint is responsible -/
  watched : addressHit s stop = none → ∀ bp, lowestWatchpoint s helper stop = some bp →
    Responsible s helper stop bp
  /-- and no other breakpoint is -/
  lowest : addressHit s stop = none → ∀ bp, Responsible s helper stop bp →
    lowestWatchpoint s helper stop = some bp

end Responsibility

variable {s : Debugger K} {helper : HardwareBreakpointManager} {stop : TrapStop} {threadId : Int}
  {thread : ThreadContext} {bp : Ref}

/-! ### What the handler credits -/

/-- The breakpoint that the handler takes -/
def creditedHit (s : Debugger K) (helper : HardwareBreakpointManager) (stop : TrapStop) :
    Option Ref :=
  addressHit s stop <|> lowestWatchpoint s helper stop

theorem run_isWatchpointHit (found : s.hardwareBpHelpers.get? threadId = some helper)
    (read : k.peekuser s.world.os threadId dr6Offset = some stop.dr6) :
    (isWatchpointHit k threadId).run s = .ok (lowestWatchpoint s helper stop) s := by
  have peeked : (peekUser k threadId dr6Offset).run s = .ok stop.dr6 s := by
    simp only [peekUser, EStateM.run_bind, EStateM.run_get, read]
    rfl
  simp only [isWatchpointHit, EStateM.run_bind, run_getHelper found, peeked, EStateM.run_get,
    lowestWatchpoint]
  cases (hitDebugReg stop.dr6).bind helper.breakpointRegisters with
  | none => rfl
  | some bp =>
      by_cases execute : (s.objects bp).condition = some "x"
      · simp [execute, Option.filter]
      · simp [execute, Option.filter]

/-- The handler finds the breakpoint it takes, and counts nothing yet. -/
theorem run_findHit (k : Kernel K) (thread : ThreadContext)
    (found : s.hardwareBpHelpers.get? threadId = some helper)
    (read : k.peekuser s.world.os threadId dr6Offset = some stop.dr6) :
    ∃ next, (findHit k threadId thread stop.ip).run s =
        .ok (creditedHit s helper stop) next ∧
      ∀ bp, (next.objects bp).hitCount = (s.objects bp).hitCount := by
  cases here : s.activeBreakpoint stop.ip with
  | some bp =>
      refine ⟨s, ?_, fun _ => rfl⟩
      rw [findHit_at here, creditedHit, addressHit, here]
      rfl
  | none =>
      cases before : (beforeTrap stop.ip).bind s.activeBreakpoint with
      | some bp =>
          obtain ⟨a, behind⟩ : ∃ a, stop.ip = a + 1 := by
            cases ip : stop.ip with
            | zero =>
                rw [ip] at before
                cases before
            | succ a => exact ⟨a, rfl⟩
          rw [behind] at here before
          have active : s.activeBreakpoint a = some bp := before
          obtain ⟨next, hit, _, counts⟩ := findHit_before k threadId thread here active
          refine ⟨next, ?_, counts⟩
          rw [creditedHit, addressHit, behind, here, before]
          exact hit
      | none =>
          refine ⟨s, ?_, fun _ => rfl⟩
          simp only [findHit, EStateM.run_bind, EStateM.run_get, here, before]
          rw [run_isWatchpointHit found read, creditedHit, addressHit, here, before]
          rfl

/-- The hits of a breakpoint after the handler -/
theorem handleBreakpoints_hitCount {i : Nat} (k : Kernel K) (u : UserCode K) (stop : TrapStop)
    (live : s.getThreadById threadId = some i) (context : s.threads[i]? = some thread)
    (found : s.hardwareBpHelpers.get? threadId = some helper)
    (stopped : s.readReg thread .rip = stop.ip)
    (read : k.peekuser s.world.os threadId dr6Offset = some stop.dr6) (bp : Ref) :
    ((stateAfter (handleBreakpoints k u threadId) s).objects bp).hitCount =
      (s.objects bp).hitCount + if creditedHit s helper stop = some bp then 1 else 0 := by
  obtain ⟨next, hit, counts⟩ := run_findHit k thread found read
  rw [← stopped] at hit
  cases taken : creditedHit s helper stop with
  | none =>
      rw [taken] at hit
      have after : stateAfter (handleBreakpoints k u threadId) s = next := by
        simp only [handleBreakpoints, stateAfter_get_bind, live, Option.bind_some, context]
        exact stateAfter_bind_ok hit
      rw [after, counts, if_neg (Option.some_ne_none bp).symm, Nat.add_zero]
  | some credited =>
      rw [taken] at hit
      rw [handleBreakpoints_of_hit live context hit, creditHit_hitCount, counts]
      by_cases same : bp = credited
      · subst same
        rw [if_pos rfl, if_pos rfl]
      · rw [if_neg same, if_neg]
        intro other
        exact same (Option.some.inj other).symm

/-! ### Where it is the cause -/

theorem creditedHit_eq_some :
    creditedHit s helper stop = some bp ↔
      addressHit s stop = some bp ∨
        (addressHit s stop = none ∧ lowestWatchpoint s helper stop = some bp) := by
  rw [creditedHit]
  cases addressHit s stop with
  | none => simp
  | some other => simp

theorem singleCause_iff :
    SingleCause s helper stop ↔
      ∀ bp, Responsible s helper stop bp ↔ creditedHit s helper stop = some bp := by
  simp only [creditedHit_eq_some]
  constructor
  · intro causes bp
    constructor
    · intro responsible
      cases address : addressHit s stop with
      | none => exact .inr ⟨rfl, causes.lowest address bp responsible⟩
      | some other =>
          left
          rw [causes.single bp other responsible (causes.atAddress other address)]
    · rintro (address | ⟨none, watched⟩)
      · exact causes.atAddress bp address
      · exact causes.watched none bp watched
  · intro same
    constructor
    · intro bp other responsible responsibleOther
      rcases (same bp).mp responsible with address | ⟨none, watched⟩
      · rcases (same other).mp responsibleOther with addressOther | ⟨none, _⟩
        · exact Option.some.inj (address.symm.trans addressOther)
        · cases address.symm.trans none
      · rcases (same other).mp responsibleOther with addressOther | ⟨_, watchedOther⟩
        · cases none.symm.trans addressOther
        · exact Option.some.inj (watched.symm.trans watchedOther)
    · intro bp address
      exact (same bp).mpr (.inl address)
    · intro none bp watched
      exact (same bp).mpr (.inr ⟨none, watched⟩)
    · intro none bp responsible
      rcases (same bp).mp responsible with address | ⟨_, watched⟩
      · cases none.symm.trans address
      · exact watched

/-- The hits of a stop are credited to its causes, and to no other breakpoint, if and only if
there is a single cause at most and the addresses, or else the lowest bit of `DR6`, lead to it
and to nothing else. -/
theorem credits_causes_iff (k : Kernel K) (u : UserCode K) {s : Debugger K}
    {helper : HardwareBreakpointManager} {stop : TrapStop} {threadId : Int}
    {thread : ThreadContext} {i : Nat} (live : s.getThreadById threadId = some i)
    (context : s.threads[i]? = some thread)
    (found : s.hardwareBpHelpers.get? threadId = some helper)
    (stopped : s.readReg thread .rip = stop.ip)
    (read : k.peekuser s.world.os threadId dr6Offset = some stop.dr6) :
    CreditsCauses s helper stop k u threadId ↔ SingleCause s helper stop := by
  rw [singleCause_iff]
  have counts := handleBreakpoints_hitCount k u stop live context found stopped read
  apply forall_congr'
  intro bp
  rw [counts bp]
  by_cases credited : creditedHit s helper stop = some bp
  · rw [if_pos credited]
    simp only [credited, iff_true]
    constructor
    · intro agrees
      by_contra free
      have := agrees.2 free
      omega
    · intro responsible
      exact ⟨fun _ => trivial, fun free => absurd responsible free⟩
  · rw [if_neg credited, Nat.add_zero]
    simp only [credited, iff_false]
    constructor
    · intro agrees responsible
      have := agrees.1 responsible
      omega
    · intro free
      exact ⟨fun responsible => absurd responsible free, fun _ => trivial⟩

/-- The trap byte at `0x1000` was executed. -/
theorem credits_executed_trap :
    ∃ s, (debugging scripted idle).run (.initial trappedAt0x1000)
        [.registerNewThread 1, .breakpoint 0x1000 "0x1000" false none 1 none] = some s ∧
      CreditsCauses s {} ⟨false, true, 0x1001, 0⟩ scripted idle 1 := by
  refine ⟨_, rfl, ?_⟩
  refine (credits_causes_iff scripted idle (i := 0) rfl rfl rfl rfl rfl).mpr ?_
  apply singleCause_iff.mpr
  intro bp
  constructor
  · rintro ⟨_, ⟨_, before, _⟩ | ⟨register, _, holds, _⟩⟩
    · exact before
    · cases holds
  · intro credited
    exact ⟨rfl, .inl ⟨rfl, credited, by cases credited; rfl⟩⟩

/-- Thread 1 is stopped at `0x1000` by an event. -/
def eventAt0x1000 : World Script := .nops { registers := fun _ => some fun _ => 0x1000 }

/-- The event counts as a hit of the breakpoint at the same address. -/
theorem event_credited_to_breakpoint :
    ∃ s, (debugging scripted idle).run (.initial eventAt0x1000)
        [.registerNewThread 1, .breakpoint 0x1000 "0x1000" false none 1 none] = some s ∧
      s.readReg ⟨1, 0, 0, false, none, none⟩ .rip = 0x1000 ∧
      ¬ CreditsCauses s {} ⟨true, false, 0x1000, 0⟩ scripted idle 1 := by
  refine ⟨_, rfl, rfl, ?_⟩
  intro credits
  have free := (credits 0).2 fun responsible => Bool.noConfusion responsible.1
  exact absurd free (by decide)

end Libdebug.Ptrace
