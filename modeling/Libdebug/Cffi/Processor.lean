import Libdebug.Cffi.GhostTraps
import Libdebug.Cffi.Wait
import Libdebug.Foundation.Visits
import Mathlib.Data.Set.Function

/-!
The program that the tracee runs, and a kernel that runs it.

A processor executes one instruction at a time, on the registers of the thread and on memory.
With traps in its text a program goes on as it would without them as long as it fetches none,
so the two executions come to the first trap together.
-/

namespace Libdebug.Cffi

open Libdebug.Foundation

/-- The registers of the thread, and memory -/
structure ProgramState where
  regs : UserRegs
  mem : Memory

namespace ProgramState

variable (x : ProgramState)

def ip : Nat := instructionPointer x.regs

/-- The next instruction is the trap. -/
def AtTrap : Prop := x.mem x.ip = int3

/-- The registers once the trap has been executed -/
def pastTrap : UserRegs := Function.update x.regs .rip (x.ip + 1)

/-- Setting the instruction pointer back undoes the trap. -/
theorem pastTrap_back : Function.update x.pastTrap .rip (x.pastTrap .rip - 1) = x.regs := by
  rw [pastTrap, Function.update_self, Nat.add_sub_cancel, Function.update_idem]
  exact Function.update_eq_self _ _

end ProgramState

structure Processor where
  execute : ProgramState → ProgramState
  /-- the number of bytes the next instruction is fetched from -/
  extent : ProgramState → Nat

variable {K : Type} {P : Processor} {text : Set Nat} {own patch : Memory} {x y : ProgramState}

/-- The byte belongs to the next instruction. -/
def Processor.Fetches (P : Processor) (x : ProgramState) (addr : Nat) : Prop :=
  x.ip ≤ addr ∧ addr < x.ip + P.extent x

/-- The next instruction is one of the text, and no trap. It leaves the text as it is, whatever
it finds there outside of its own bytes, and does the same. -/
structure Processor.Ordinary (P : Processor) (text : Set Nat) (x : ProgramState) : Prop where
  nonempty : 0 < P.extent x
  fetched : ∀ addr, P.Fetches x addr → addr ∈ text
  noTrap : ¬ x.AtTrap
  blind : ∀ mem, Set.EqOn mem x.mem textᶜ → (∀ addr, P.Fetches x addr → mem addr = x.mem addr) →
    (P.execute ⟨x.regs, mem⟩).regs = (P.execute x).regs ∧
      Set.EqOn (P.execute ⟨x.regs, mem⟩).mem (P.execute x).mem textᶜ ∧
      Set.EqOn (P.execute ⟨x.regs, mem⟩).mem mem text

namespace Processor.Ordinary

variable (ordinary : P.Ordinary text x)

include ordinary

theorem fetches_ip : P.Fetches x x.ip :=
  ⟨Nat.le_refl _, Nat.lt_add_of_pos_right ordinary.nonempty⟩

theorem ip_mem : x.ip ∈ text := ordinary.fetched _ ordinary.fetches_ip

theorem keeps : Set.EqOn (P.execute x).mem x.mem text :=
  (ordinary.blind x.mem (Set.eqOn_refl _ _) fun _ _ => rfl).2.2

omit ordinary in
/-- However many of them are executed, the text stays as it is. -/
theorem keeps_iterate {n : Nat} (along : ∀ i < n, P.Ordinary text (P.execute^[i] x)) :
    Set.EqOn (P.execute^[n] x).mem x.mem text := by
  induction n with
  | zero => exact Set.eqOn_refl _ _
  | succ n ih =>
      rw [Function.iterate_succ_apply']
      exact (along n (Nat.lt_succ_self n)).keeps.trans
        (ih fun i before => along i (Nat.lt_succ_of_lt before))

end Processor.Ordinary

/-! ### ProgramState with a patched text -/

/-- The second tracee is the first with another text. -/
structure ProgramState.Patched (text : Set Nat) (patch : Memory) (x y : ProgramState) : Prop where
  regs : y.regs = x.regs
  data : Set.EqOn y.mem x.mem textᶜ
  text : Set.EqOn y.mem patch text

/-- An instruction that is fetched as it was does as it did. -/
theorem ProgramState.Patched.execute (patched : x.Patched text patch y)
    (ordinary : P.Ordinary text x)
    (intact : ∀ addr, P.Fetches x addr → patch addr = x.mem addr) :
    (P.execute x).Patched text patch (P.execute y) := by
  obtain ⟨regs, mem⟩ := y
  obtain ⟨rfl, data, patchedText⟩ := patched
  obtain ⟨sameRegs, sameData, keeps⟩ := ordinary.blind mem data fun addr fetched =>
    (patchedText (ordinary.fetched addr fetched)).trans (intact addr fetched)
  exact ⟨sameRegs, sameData, keeps.trans patchedText⟩

/-- The text with traps at some addresses -/
def armed (own : Memory) (traps : List Nat) : Memory := fun addr =>
  if addr ∈ traps then int3 else own addr

/-- The traps are in the way of the next instruction only where it begins. -/
def Processor.Unbroken (P : Processor) (traps : List Nat) (x : ProgramState) : Prop :=
  ∀ addr ∈ traps, P.Fetches x addr → addr = x.ip

/-- With traps in its text a program comes to the first of them as it would come there without
any. -/
theorem firstVisit_armed {traps : List Nat} (inText : ∀ addr ∈ traps, addr ∈ text) {n : Nat}
    (visit : FirstVisit P.execute (·.ip ∈ traps) n x) (native : Set.EqOn x.mem own text)
    (ordinary : ∀ i < n, P.Ordinary text (P.execute^[i] x) ∧ P.Unbroken traps (P.execute^[i] x))
    (patched : x.Patched text (armed own traps) y) :
    FirstVisit P.execute ProgramState.AtTrap n y ∧
      (P.execute^[n] x).Patched text (armed own traps) (P.execute^[n] y) ∧
      Set.EqOn (P.execute^[n] x).mem own text := by
  refine visit.lockstep
    (R := fun _ x y => x.Patched text (armed own traps) y ∧ Set.EqOn x.mem own text)
    (fun i before a b here ⟨patched, native⟩ away => ?_) (fun a b ⟨patched, _⟩ there => ?_)
    ⟨patched, native⟩
  · obtain ⟨ordinary, unbroken⟩ := here ▸ ordinary i before
    have intact addr (fetched : P.Fetches a addr) : armed own traps addr = a.mem addr := by
      rw [native (ordinary.fetched addr fetched), armed, if_neg]
      intro trap
      exact away (unbroken addr trap fetched ▸ trap)
    refine ⟨fun trapped => ordinary.noTrap ?_, patched.execute ordinary intact,
      ordinary.keeps.trans native⟩
    rw [ProgramState.AtTrap, ProgramState.ip, patched.regs] at trapped
    rw [ProgramState.AtTrap, ← intact _ ordinary.fetches_ip, ← patched.text ordinary.ip_mem]
    exact trapped
  · rw [ProgramState.AtTrap, ProgramState.ip, patched.regs]
    exact (patched.text (inText _ there)).trans (if_pos there)

end Libdebug.Cffi
