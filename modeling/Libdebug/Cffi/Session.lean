import Libdebug.Cffi.Requests
import Libdebug.Foundation.Runs

/-!
Sequences of calls into the C layer. `session` is the machine whose events are the
calls the Python side makes; a call that crashes, or is still in one of its loops,
leads nowhere.

`Session.planted` is bookkeeping: the addresses whose trap byte has been written to
memory since the traps were last taken out, and not overwritten there by the word
of another breakpoint. No call reads it.
-/

namespace Libdebug.Cffi

open Libdebug.Foundation

structure Session (K : Type) where
  g : GlobalState
  w : World K
  planted : List Nat

inductive Call where
  | registerThread (tid : Int)
  | unregisterThread (tid : Int)
  | registerBreakpoint (address : Nat)
  | unregisterBreakpoint (address : Nat)
  | enableBreakpoint (address : Nat)
  | disableBreakpoint (address : Nat)
  | freeBreakpoints
  /-- a register assigned through the pointer the Python side holds -/
  | writeRegs (file : Ptr) (regs : UserRegs)
  /-- a signal to forward stored in the node that embeds a register file -/
  | forward (file : Ptr) (signal : Nat)
  | ptracePokedata (addr : Nat) (data : Word)
  | singlestep (tid : Int)
  | stepUntil (fuel : Nat) (tid : Int) (addr : Nat) (maxSteps : Int)
  | contAllAndSetBps
  | steppingFinish (fuel : Nat) (tid : Int)
  | waitAllAndUpdateRegs (fuel : Nat)

/-- The traps that stay in memory when a word is written at `address`. -/
def overwrite (address : Nat) (planted : List Nat) : List Nat :=
  planted.filter fun x => ¬ Covers address x

theorem mem_overwrite {address x : Nat} {planted : List Nat} :
    x ∈ overwrite address planted ↔ x ∈ planted ∧ ¬ Covers address x := by
  simp [overwrite]

variable {K : Type} (k : Kernel K) (pid : Int)

def Session.call (s : Session K) : Call → Option (Session K)
  | .registerThread tid => some { s with g := (registerThread k s.g s.w tid).2 }
  | .unregisterThread tid => some { s with g := unregisterThread s.g tid }
  | .registerBreakpoint address =>
      -- the other seven bytes are written back as they were read
      let (g, w) := registerBreakpoint s.g s.w address
      some ⟨g, w, address :: s.planted⟩
  | .unregisterBreakpoint address => some { s with g := unregisterBreakpoint s.g address }
  | .enableBreakpoint address =>
      (enableBreakpoint s.g s.w address).map fun (g, w) =>
        ⟨g, w, if findEntry address s.g.bHead = none then s.planted
          else address :: overwrite address s.planted⟩
  | .disableBreakpoint address =>
      (disableBreakpoint s.g s.w address).map fun (g, w) =>
        ⟨g, w, if findEntry address s.g.bHead = none then s.planted
          else overwrite address s.planted⟩
  | .freeBreakpoints => some { s with g := freeBreakpoints s.g }
  | .writeRegs file regs => some { s with g := s.g.setFile file regs }
  | .forward file signal => some { s with g := s.g.forward file signal }
  | .ptracePokedata addr data => some { s with w := s.w.pokedata addr data }
  | .singlestep tid =>
      let (_, g, w) := singlestep k s.g s.w tid
      some ⟨g, w, s.planted⟩
  | .stepUntil fuel tid addr maxSteps =>
      match stepUntil k fuel s.g s.w tid addr maxSteps with
      | (none, _, _) => none
      | (some _, g, w) => some ⟨g, w, s.planted⟩
  | .contAllAndSetBps =>
      let (_, g, w) := contAllAndSetBps k s.g s.w
      some ⟨g, w, s.g.enabledAddrs ++ s.planted⟩
  | .steppingFinish fuel tid =>
      match steppingFinish k fuel s.g s.w tid with
      | (none, _, _) => none
      | (some result, g, w) =>
          some ⟨g, w, if result = 0 then [] else s.g.enabledAddrs ++ s.planted⟩
  | .waitAllAndUpdateRegs fuel =>
      match waitAllAndUpdateRegs k fuel s.g s.w pid with
      | (.polling, _, _) => none
      | (.null, g, w) => some ⟨g, w, s.planted⟩
      | (.statuses _, g, w) => some ⟨g, w, []⟩

def session : Machine (Session K) Call := ⟨fun s call => s.call k pid call⟩

/-- The state before the first call: no thread, no breakpoint. -/
def Session.initial (w : World K) : Session K := ⟨.empty, w, []⟩

end Libdebug.Cffi
