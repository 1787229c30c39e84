import Libdebug.Cffi.Resume
import Libdebug.Foundation.Stutters
import Mathlib.Logic.Function.Iterate

/-!
A thread that is stepped one instruction at a time: the rounds that the stepping loops of
the C layer have in common, and the instruction pointers they see.
-/

namespace Libdebug.Cffi

open Libdebug.Foundation

/-- A thread with its register file, and where its stepping begins. -/
structure Stepping (K : Type) where
  tid : Int
  file : Ptr
  start : GlobalState × World K

namespace Stepping

variable {K : Type} (k : Kernel K) (site : WaitSite) (x : Stepping K)

/-- One round of a stepping loop: a single step, the wait for its end, and the registers
after it. Where the request fails there is no end to wait for. -/
def round (s : GlobalState × World K) : GlobalState × World K :=
  match s.2.singlestep k x.tid 0 with
  | (false, w) => (s.1, w)
  | (true, w) =>
      let (_, w) := w.waitpid k site (.thread x.tid) false
      (s.1.getregs k w x.tid x.file, w)

def after (n : Nat) : GlobalState × World K := (x.round k site)^[n] x.start

/-- The instruction pointer after so many rounds -/
def ip (n : Nat) : Nat := instructionPointer ((x.after k site n).1.files x.file)

/-- The request of a round succeeds. -/
def steps (n : Nat) : Bool := ((x.after k site n).2.singlestep k x.tid 0).1

variable {k site x} {n : Nat}

theorem after_succ : x.after k site (n + 1) = x.round k site (x.after k site n) :=
  Function.iterate_succ_apply' _ _ _

/-- A request that fails changes nothing. -/
theorem singlestep_of_not_steps (failed : x.steps k site n = false) :
    (x.after k site n).2.singlestep k x.tid 0 = (false, (x.after k site n).2) := by
  unfold steps World.singlestep at *
  split at failed
  · rfl
  · cases failed

theorem after_succ_of_steps (stepped : x.steps k site n = true) :
    ∃ w, (x.after k site n).2.singlestep k x.tid 0 = (true, w) ∧
      x.after k site (n + 1) =
        ((x.after k site n).1.getregs k (w.waitpid k site (.thread x.tid) false).2 x.tid x.file,
          (w.waitpid k site (.thread x.tid) false).2) := by
  rw [steps] at stepped
  rcases requested : (x.after k site n).2.singlestep k x.tid 0 with ⟨_ | _, w⟩
  · rw [requested] at stepped
    cases stepped
  · refine ⟨w, rfl, ?_⟩
    rw [after_succ, round, requested]

/-- A step is noted in the history. -/
theorem log_lt_of_steps (stepped : x.steps k site n = true) :
    (x.after k site n).2.log.length < (x.after k site (n + 1)).2.log.length := by
  obtain ⟨w, requested, afterwards⟩ := after_succ_of_steps stepped
  have noted : w.log.length = (x.after k site n).2.log.length + 1 := by
    rw [World.singlestep] at requested
    split at requested
    · cases requested
    · cases requested
      rfl
  rw [afterwards, World.waitpid]
  split
  · exact Nat.lt_of_lt_of_eq (Nat.lt_succ_self _) noted.symm
  · simp only [World.record_log, List.length_cons]
    omega

theorem log_lt (k : Kernel K) (site : WaitSite) (x : Stepping K) {m : Nat} (before : n < m)
    (stepped : ∀ i, n ≤ i → i < m → x.steps k site i = true) :
    (x.after k site n).2.log.length < (x.after k site m).2.log.length := by
  induction m, before using Nat.le_induction with
  | base => exact log_lt_of_steps (stepped n (Nat.le_refl n) (Nat.lt_succ_self n))
  | succ m later ih =>
      have here := ih fun i reached upTo => stepped i reached (by omega)
      exact here.trans (log_lt_of_steps (stepped m (by omega) (Nat.lt_succ_self m)))

end Stepping

/-! ### A thread that follows a path -/

/-- Its only thread is one instruction further on a path after each single step. -/
def pacing (path : Nat → Nat) : Kernel Nat where
  errno _ := 3
  getregs os _ := some (Function.update (fun _ => 0) .rip (path os))
  setregs os _ _ := some os
  peekuser _ _ _ := some 0
  pokeuser os _ _ _ := some os
  geteventmsg _ _ := 0
  singlestep mem os _ _ := some (mem, os + 1)
  cont mem os _ _ _ := some (mem, os)
  tgkill os _ _ _ := os
  waitpid mem os target _ :=
    match target with
    | .thread tid | .group tid => (some ⟨tid, 0x57f, .singleStep⟩, mem, os)

namespace Stepping

variable {path : Nat → Nat} {site : WaitSite} {x : Stepping Nat} {n : Nat}

theorem os_pacing : (x.after (pacing path) site n).2.os = x.start.2.os + n := by
  induction n with
  | zero => rfl
  | succ n ih =>
      rw [after_succ, ← Nat.add_assoc, ← ih]
      rfl

theorem mem_pacing : (x.after (pacing path) site n).2.mem = x.start.2.mem := by
  induction n with
  | zero => rfl
  | succ n ih =>
      rw [after_succ, ← ih]
      rfl

theorem ip_pacing (begins : x.ip (pacing path) site 0 = path x.start.2.os) :
    x.ip (pacing path) site n = path (x.start.2.os + n) := by
  cases n with
  | zero => exact begins
  | succ n =>
      have read : x.ip (pacing path) site (n + 1) =
          path ((x.after (pacing path) site n).2.os + 1) := by
        rw [ip, after_succ]
        simp [round, World.singlestep, World.waitpid, pacing, GlobalState.getregs,
          GlobalState.setFile, instructionPointer]
      rw [read, os_pacing, Nat.add_assoc]

end Stepping

end Libdebug.Cffi
