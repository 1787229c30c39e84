import Libdebug.Ptrace.Commands

/-!
Which breakpoint a `SIGTRAP` is put down to.

After a software breakpoint at `a` the kernel reports the instruction pointer `a + 1`.
`handleBreakpoints` looks there first, and takes whatever breakpoint it finds for a
hardware one: it does not test the field `hardware`. So the trap is put down to the
breakpoint at `a`, and the instruction pointer set back, exactly when no breakpoint at
`a + 1` counts as hit.
-/

namespace Libdebug.Ptrace

open Libdebug.Foundation Libdebug.Cffi

variable {K : Type} {k : Kernel K} {u : UserCode K}

/-! ### Crediting a hit -/

theorem creditHit_hitCount (threadId : Int) (bp other : Ref) (s : Debugger K) :
    ((stateAfter (creditHit u threadId bp) s).objects other).hitCount =
      (s.objects other).hitCount + if other = bp then 1 else 0 := by
  simp only [creditHit, stateAfter_modify_bind, stateAfter_get_bind]
  have counted : (((s.setForwardSignal false).updateBreakpoint bp fun b =>
      { b with hitCount := b.hitCount + 1 }).objects other).hitCount =
        (s.objects other).hitCount + if other = bp then 1 else 0 := by
    by_cases same : other = bp
    · subst same
      simp [Debugger.updateBreakpoint, Debugger.setForwardSignal]
    · simp [Debugger.updateBreakpoint, Debugger.setForwardSignal, same]
  split
  · exact (runCallback_hitCount _ _ _ other _).trans counted
  · exact counted

theorem creditHit_readReg (threadId : Int) (bp : Ref) {thread : ThreadContext} {reg : Reg}
    (quiet : ∀ callback s value,
      .setRegister thread.registerFile reg value ∉ (u callback threadId s).1) (s : Debugger K) :
    (stateAfter (creditHit u threadId bp) s).readReg thread reg = s.readReg thread reg := by
  simp only [creditHit, stateAfter_modify_bind, stateAfter_get_bind]
  split
  · exact runCallback_readReg _ _ _ (quiet _) _
  · rfl

/-! ### Finding the breakpoint -/

variable {s : Debugger K} {threadId : Int} {thread : ThreadContext} {a : Nat} {bp : Ref}

/-- A breakpoint at the instruction pointer takes the hit, of whatever kind it is. -/
theorem findHit_at {ip : Nat} (active : s.activeBreakpoint ip = some bp) :
    (findHit k threadId thread ip).run s = .ok (some bp) s := by
  simp [findHit, active]

/-- Else the one in front of the instruction pointer takes it. -/
theorem findHit_before (k : Kernel K) (threadId : Int) (thread : ThreadContext)
    (none : s.activeBreakpoint (a + 1) = none) (active : s.activeBreakpoint a = some bp) :
    ∃ next, (findHit k threadId thread (a + 1)).run s = .ok (some bp) next ∧
      next.readReg thread .rip = a ∧
      ∀ other, (next.objects other).hitCount = (s.objects other).hitCount := by
  refine ⟨_, by simp [findHit, none, beforeTrap, softwareBreakpointByteSize, active]; rfl, ?_, ?_⟩
  · simp [Debugger.updateBreakpoint, Debugger.writeReg, Debugger.readReg, GlobalState.setFile]
  · intro other
    by_cases same : other = bp
    · subst same
      simp [Debugger.updateBreakpoint, Debugger.writeReg]
    · simp [Debugger.updateBreakpoint, Debugger.writeReg, same]

/-- The trap at `a` is put down to the breakpoint there: the instruction pointer is set
back, its hits are counted, and those of no other software breakpoint. -/
def CreditedTo (s next : Debugger K) (thread : ThreadContext) (a : Nat) (bp : Ref) : Prop :=
  next.readReg thread .rip = a ∧
    (next.objects bp).hitCount = (s.objects bp).hitCount + 1 ∧
    ∀ other, other ≠ bp → (s.objects other).hardware = false →
      (next.objects other).hitCount = (s.objects other).hitCount

theorem handleBreakpoints_of_hit {i : Nat} {next : Debugger K}
    (live : s.getThreadById threadId = some i) (context : s.threads[i]? = some thread)
    (hit : (findHit k threadId thread (s.readReg thread .rip)).run s = .ok (some bp) next) :
    stateAfter (handleBreakpoints k u threadId) s = stateAfter (creditHit u threadId bp) next := by
  simp only [handleBreakpoints, stateAfter_get_bind, live, Option.bind_some, context]
  exact stateAfter_bind_ok hit

/-- A thread that has executed the trap byte at `a` has the hit credited to the
breakpoint there if and only if no breakpoint counts as hit at `a + 1`. -/
theorem trap_credited_iff {i : Nat} (live : s.getThreadById threadId = some i)
    (context : s.threads[i]? = some thread) (stopped : s.readReg thread .rip = a + 1)
    (active : s.activeBreakpoint a = some bp)
    (quiet : ∀ callback s value,
      .setRegister thread.registerFile .rip value ∉ (u callback threadId s).1) :
    CreditedTo s (stateAfter (handleBreakpoints k u threadId) s) thread a bp ↔
      s.activeBreakpoint (a + 1) = none := by
  constructor
  · rintro ⟨setBack, -, -⟩
    by_contra other
    obtain ⟨after, taken⟩ := Option.ne_none_iff_exists'.mp other
    have hit : (findHit k threadId thread (a + 1)).run s = .ok (some after) s := findHit_at taken
    rw [← stopped] at hit
    rw [handleBreakpoints_of_hit live context hit, creditHit_readReg _ _ quiet, stopped] at setBack
    omega
  · intro none
    obtain ⟨next, hit, setBack, counts⟩ := findHit_before k threadId thread none active
    rw [← stopped] at hit
    rw [handleBreakpoints_of_hit live context hit]
    refine ⟨?_, ?_, fun other different _ => ?_⟩
    · rw [creditHit_readReg _ _ quiet, setBack]
    · rw [creditHit_hitCount, if_pos rfl, counts]
    · rw [creditHit_hitCount, if_neg different, counts, Nat.add_zero]

/-- Thread 1 is stopped behind the trap byte at `0x1000`. -/
def trappedAt0x1000 : World Script := .nops { registers := fun _ => some fun _ => 0x1001 }

theorem trap_credited_alone :
    ∃ s, (debugging scripted idle).run (.initial trappedAt0x1000)
        [.registerNewThread 1, .breakpoint 0x1000 "0x1000" false none 1 none] = some s ∧
      CreditedTo s (stateAfter (handleBreakpoints scripted idle 1) s) ⟨1, 0, 0, false, none, none⟩
        0x1000 0 := by
  refine ⟨_, rfl, ?_⟩
  refine (trap_credited_iff (i := 0) rfl rfl rfl (by decide) (by simp [idle])).mpr ?_
  decide

/-- With a second breakpoint at the next address the trap is put down to that one. -/
theorem trap_miscredited_to_neighbour :
    ∃ s, (debugging scripted idle).run (.initial trappedAt0x1000)
        [.registerNewThread 1, .breakpoint 0x1000 "0x1000" false none 1 none,
          .breakpoint 0x1001 "0x1001" false none 1 none] = some s ∧
      s.activeBreakpoint 0x1000 = some 0 ∧
      ¬ CreditedTo s (stateAfter (handleBreakpoints scripted idle 1) s)
        ⟨1, 0, 0, false, none, none⟩ 0x1000 0 := by
  refine ⟨_, rfl, by decide, fun credited => ?_⟩
  exact absurd credited.1 (by decide)

end Libdebug.Ptrace
