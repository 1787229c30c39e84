import Libdebug.Cffi.Nodes
import Libdebug.Foundation.Overwrites

/-!
The register files are a cache that is written back: what is assigned to one reaches the kernel
when the process is resumed, since every function that resumes it flushes all of them first. A
debugger that passed each assignment on to the kernel at once would be in the same state, but for
the assignments that are still to be flushed, and the tracee could not tell them apart.

Two calls would lose what has not been flushed: one that reads the registers again, and one that
takes the thread off the list. The callers of the C layer resume the process before they wait
for it, and a thread whose end they are told of has no registers left to assign.
-/

namespace Libdebug.Cffi

open Libdebug.Foundation

variable {K : Type}

/-! ### The registers of the kernel -/

/-- `PTRACE_SETREGS`; on failure nothing happens. -/
def Kernel.putregs (k : Kernel K) (tid : Int) (regs : UserRegs) (os : K) : K :=
  (k.setregs os tid regs).getD os

/-- The registers of a thread can be written again and again, and independently of those of the
other threads. -/
structure Kernel.WritesRegisters (k : Kernel K) (accepts : UserRegs → Bool) : Prop where
  again : ∀ {os tid old os' new}, accepts new = true → k.setregs os tid old = some os' →
    (k.setregs os' tid new).isSome ∧ k.setregs os' tid new = k.setregs os tid new
  possible : ∀ {os tid other x os'} y, tid ≠ other → k.setregs os tid x = some os' →
    (k.setregs os' other y).isSome = (k.setregs os other y).isSome
  commute : ∀ {os tid other x y os₁ os₂}, tid ≠ other → k.setregs os tid x = some os₁ →
    k.setregs os other y = some os₂ → k.setregs os₁ other y = k.setregs os₂ tid x
  getregs_other : ∀ {os tid other regs os'}, tid ≠ other → k.setregs os tid regs = some os' →
    k.getregs os' other = k.getregs os other

variable {k : Kernel K} {accepts : UserRegs → Bool} {pid : Int}

namespace Kernel.WritesRegisters

variable (writes : k.WritesRegisters accepts)

include writes

theorem overwrites : Overwrites k.putregs (accepts · = true) where
  again {new} accepted tid old os := by
    unfold putregs
    rcases first : k.setregs os tid old with _ | os'
    · rfl
    · obtain ⟨possible, same⟩ := writes.again accepted first
      obtain ⟨os'', second⟩ := Option.isSome_iff_exists.mp possible
      simp [← same, second]
  commute {tid other} different x y os := by
    unfold putregs
    rcases mine : k.setregs os tid x with _ | os₁ <;>
      rcases yours : k.setregs os other y with _ | os₂
    · simp [mine, yours]
    · have still := writes.possible x different.symm yours
      rw [mine, Option.isSome_none, Option.isSome_eq_false_iff, Option.isNone_iff_eq_none] at still
      simp [yours, still]
    · have still := writes.possible y different mine
      rw [yours, Option.isSome_none, Option.isSome_eq_false_iff, Option.isNone_iff_eq_none] at still
      simp [mine, still]
    · have both := writes.commute different mine yours
      have there := writes.possible y different mine
      rw [yours, Option.isSome_some] at there
      obtain ⟨os₃, last⟩ := Option.isSome_iff_exists.mp there
      simp [last, ← both]

theorem getregs_putregs {tid other : Int} (different : tid ≠ other) (regs : UserRegs) (os : K) :
    k.getregs (k.putregs tid regs os) other = k.getregs os other := by
  unfold putregs
  rcases written : k.setregs os tid regs with _ | os'
  · rfl
  · exact writes.getregs_other different written

end Kernel.WritesRegisters

/-! ### What is still to be flushed -/

/-- The kernel once the registers in the pending files have been written -/
def settledOs (k : Kernel K) (pending : List Ptr) (g : GlobalState) (os : K) : K :=
  settleCells k.putregs g.files (· ∈ pending) (nodeIds g) os

/-- The session in which nothing is left to be flushed -/
def Session.settled (k : Kernel K) (pending : List Ptr) (s : Session K) : Session K :=
  { s with w := { s.w with os := settledOs k pending s.g s.w.os } }

theorem setregs_eq (w : World K) (tid : Int) (regs : UserRegs) :
    w.setregs k tid regs = { w with os := k.putregs tid regs w.os } := by
  unfold World.setregs Kernel.putregs
  split <;> simp [*]

theorem flushRegs_eq (g : GlobalState) (w : World K) : flushRegs k g w =
    { w with os := settleCells k.putregs g.files (fun _ => true) (nodeIds g) w.os } := by
  unfold flushRegs nodeIds
  generalize g.tHead = threads
  induction threads generalizing w with
  | nil => rfl
  | cons t rest ih =>
      rw [List.foldl_cons, ih, setregs_eq, List.map_cons, settleCells_cons, if_pos rfl]

section Settled

variable {s : Session K} {pending : List Ptr}

theorem settled_nil (s : Session K) : s.settled k [] = s := by
  have none : settledOs k [] s.g s.w.os = s.w.os := settleCells_of_none fun _ _ => by simp
  rw [Session.settled, none]

/-- **A flush leaves no trace of when registers were written.** -/
theorem flushRegs_settled (writes : k.WritesRegisters accepts) (apart : NodesApart s.g)
    (accepted : ∀ file ∈ pending, accepts (s.g.files file) = true) :
    flushRegs k s.g (s.settled k pending).w = flushRegs k s.g s.w := by
  have distinct : ((nodeIds s.g).map Prod.fst).Nodup := by
    rw [nodeIds, List.map_map]
    exact apart.tids
  rw [flushRegs_eq, flushRegs_eq]
  simp only [Session.settled, settledOs]
  rw [writes.overwrites.flush_settleCells distinct fun cell _ waits =>
    accepted cell.2 (of_decide_eq_true waits)]

/-- A thread that is not registered has the registers that it had. -/
theorem getregs_settled (writes : k.WritesRegisters accepts) {tid : Int}
    (absent : tid ∉ (nodeIds s.g).map Prod.fst) :
    k.getregs (s.settled k pending).w.os tid = k.getregs s.w.os tid := by
  simp only [Session.settled, settledOs]
  generalize nodeIds s.g = cells at absent
  generalize s.w.os = os
  induction cells generalizing os with
  | nil => rfl
  | cons cell rest ih =>
      rw [List.map_cons, List.mem_cons, not_or] at absent
      rw [settleCells_cons, ih absent.2]
      split
      · exact writes.getregs_putregs (Ne.symm absent.1) _ _
      · rfl

end Settled

/-! ### Two debuggers -/

/-- The node that embeds the register file -/
def GlobalState.owner (g : GlobalState) (file : Ptr) : Option Thread :=
  g.tHead.find? (·.regs = file)

/-- Calls into a C layer that hands every assignment on to the kernel -/
def Session.callThrough (k : Kernel K) (pid : Int) (s : Session K) : Call → Option (Session K)
  | .writeRegs file regs =>
      let w := match s.g.owner file with
        | none => s.w
        | some t => s.w.setregs k t.tid regs
      some { s with g := s.g.setFile file regs, w }
  | call => s.call k pid call

def plainSession (k : Kernel K) (pid : Int) : Machine (Session K) Call :=
  ⟨fun s call => s.callThrough k pid call⟩

/-- The files that have been assigned to since the last flush -/
def stillPending (s : Session K) (pending : List Ptr) : Call → List Ptr
  | .writeRegs file _ => if (s.g.owner file).isSome then file :: pending else pending
  | .singlestep _ | .stepUntil .. | .contAllAndSetBps | .steppingFinish .. => []
  | _ => pending

/-- The call loses no assignment: nothing is pending when registers are read again, or for the
thread that is taken off the list, and the kernel accepts what is assigned. -/
def LosesNothing (accepts : UserRegs → Bool) (s : Session K) (pending : List Ptr) : Call → Bool
  | .writeRegs _ regs => accepts regs
  | .waitAllAndUpdateRegs _ => pending.isEmpty
  | .unregisterThread tid => s.g.tHead.all fun t => t.tid ≠ tid || t.regs ∉ pending
  | _ => true

/-- The C layer as it is, with a record of what is pending, as long as nothing is lost -/
def cachedSession (k : Kernel K) (pid : Int) (accepts : UserRegs → Bool) :
    Machine (Session K × List Ptr) Call where
  step := fun (s, pending) call =>
    if LosesNothing accepts s pending call then
      (s.call k pid call).map fun next => (next, stillPending s pending call)
    else none

/-! ### One call -/

/-- What is known of the files that are pending -/
structure Cached (accepts : UserRegs → Bool) (s : Session K) (pending : List Ptr) : Prop where
  apart : NodesApart s.g
  accepted : ∀ file ∈ pending, accepts (s.g.files file) = true
  allocated : ∀ file ∈ pending, file < s.g.fresh

section Calls

variable {s next : Session K} {pending : List Ptr} {call : Call}

/-- The session with another kernel behind it -/
def Session.withOs (s : Session K) (os : K) : Session K := { s with w := { s.w with os } }

/-- A call that neither looks at the kernel nor at the registers -/
def LeavesRegisters : Call → Prop
  | .registerBreakpoint _ | .unregisterBreakpoint _ | .enableBreakpoint _ | .disableBreakpoint _
  | .freeBreakpoints | .forward .. | .ptracePokedata .. => True
  | _ => False

theorem enableBreakpoint_withOs (g : GlobalState) (w : World K) (os : K) (address : Nat) :
    enableBreakpoint g { w with os } address =
      (enableBreakpoint g w address).map fun (g, w) => (g, { w with os }) := by
  unfold enableBreakpoint
  split <;> rfl

theorem disableBreakpoint_withOs (g : GlobalState) (w : World K) (os : K) (address : Nat) :
    disableBreakpoint g { w with os } address =
      (disableBreakpoint g w address).map fun (g, w) => (g, { w with os }) := by
  unfold disableBreakpoint
  split <;> rfl

theorem call_withOs (quiet : LeavesRegisters call) (os : K) :
    (s.withOs os).call k pid call = (s.call k pid call).map (·.withOs os) := by
  cases call with
  | registerBreakpoint address =>
      simp only [Session.call, Session.withOs, registerBreakpoint]
      split <;> rfl
  | enableBreakpoint address =>
      simp only [Session.call, Session.withOs, enableBreakpoint_withOs, Option.map_map]
      rfl
  | disableBreakpoint address =>
      simp only [Session.call, Session.withOs, disableBreakpoint_withOs, Option.map_map]
      rfl
  | unregisterBreakpoint | freeBreakpoints | forward | ptracePokedata => rfl
  | _ => exact quiet.elim

theorem call_quiet (quiet : LeavesRegisters call) (called : s.call k pid call = some next) :
    nodeIds next.g = nodeIds s.g ∧ next.g.files = s.g.files ∧ next.g.fresh = s.g.fresh ∧
      next.w.os = s.w.os := by
  cases call with
  | registerBreakpoint address =>
      rcases registerBreakpoint_cases s.g s.w address with
          ⟨b, -, done⟩ | ⟨b, -, -, -, -, done⟩ <;>
        simp only [Session.call, done] at called <;> cases called <;>
        exact ⟨rfl, rfl, rfl, rfl⟩
  | enableBreakpoint address =>
      obtain ⟨⟨g, w⟩, switched, rfl⟩ := Option.map_eq_some_iff.mp called
      rcases enableBreakpoint_cases switched with ⟨-, rfl, rfl⟩ | ⟨b, -, rfl, rfl⟩ <;>
        exact ⟨rfl, rfl, rfl, rfl⟩
  | disableBreakpoint address =>
      obtain ⟨⟨g, w⟩, switched, rfl⟩ := Option.map_eq_some_iff.mp called
      rcases disableBreakpoint_cases switched with ⟨-, rfl, rfl⟩ | ⟨b, -, rfl, rfl⟩ <;>
        exact ⟨rfl, rfl, rfl, rfl⟩
  | forward file signal =>
      cases called
      exact ⟨nodeIds_forward s.g file signal, rfl, rfl, rfl⟩
  | unregisterBreakpoint | freeBreakpoints | ptracePokedata =>
      cases called
      exact ⟨rfl, rfl, rfl, rfl⟩
  | _ => exact quiet.elim

theorem quiet_step (quiet : LeavesRegisters call) (called : s.call k pid call = some next) :
    (s.settled k pending).call k pid call = some (next.settled k pending) := by
  obtain ⟨ids, files, -, os⟩ := call_quiet quiet called
  have same : settledOs k pending next.g next.w.os = settledOs k pending s.g s.w.os := by
    rw [settledOs, settledOs, ids, files, os]
  change (s.withOs (settledOs k pending s.g s.w.os)).call k pid call = _
  rw [call_withOs quiet, called, Session.settled, same]
  rfl

/-- A call that lets the process run -/
def Resumes : Call → Prop
  | .singlestep _ | .stepUntil .. | .contAllAndSetBps | .steppingFinish .. => True
  | _ => False

/-- Every function that resumes the process flushes the registers first. -/
theorem resume_step (writes : k.WritesRegisters accepts) (cached : Cached accepts s pending)
    (resumes : Resumes call) : (s.settled k pending).call k pid call = s.call k pid call := by
  have flushed := flushRegs_settled writes cached.apart cached.accepted
  have state : (s.settled k pending).g = s.g := rfl
  have traps : (s.settled k pending).planted = s.planted := rfl
  cases call with
  | singlestep tid => simp only [Session.call, singlestep, state, traps, flushed]
  | stepUntil fuel tid addr maxSteps =>
      simp only [Session.call, stepUntil, state, traps, flushed]
  | contAllAndSetBps =>
      simp only [Session.call, contAllAndSetBps, prepareForRun, state, traps, flushed]
  | steppingFinish fuel tid =>
      simp only [Session.call, steppingFinish, prepareForRun, state, traps, flushed]
  | _ => exact resumes.elim

/-- A thread that is registered brings no assignment with it. -/
theorem settledOs_register (cached : Cached accepts s pending) {tid : Int} {g : GlobalState}
    (absent : s.g.tHead.find? (·.tid = tid) = none) (w : World K) (os : K)
    (registered : g = (registerThread k s.g w tid).2) :
    settledOs k pending g os = settledOs k pending s.g os ∧
      (∀ file ≠ s.g.fresh, g.files file = s.g.files file) ∧ g.fresh = s.g.fresh + 1 := by
  have fresh : s.g.fresh ∉ pending := fun member =>
    Nat.lt_irrefl _ (cached.allocated _ member)
  have files (file : Ptr) (old : file ≠ s.g.fresh) : g.files file = s.g.files file := by
    rw [registered, registerThread, absent]
    dsimp only
    unfold GlobalState.getregs
    split
    · rfl
    · exact Function.update_of_ne old _ _
  have ids : nodeIds g = (tid, s.g.fresh) :: nodeIds s.g := by
    rw [registered, registerThread, absent]
    simp [nodeIds]
  refine ⟨?_, files, by rw [registered, registerThread, absent]; simp⟩
  rw [settledOs, ids, settleCells_cons, if_neg (by simpa using fresh)]
  refine settleCells_congr fun cell member => ⟨rfl, fun _ => files _ ?_⟩
  obtain ⟨t, there, rfl⟩ := List.mem_map.mp member
  exact Nat.ne_of_lt (cached.apart.allocated t there)

/-- A thread is registered with the registers that the kernel has for it. -/
theorem registerThread_step (writes : k.WritesRegisters accepts)
    (cached : Cached accepts s pending) (tid : Int)
    (called : s.call k pid (.registerThread tid) = some next) :
    (s.settled k pending).call k pid (.registerThread tid) = some (next.settled k pending) ∧
      Cached accepts next pending := by
  have apart : NodesApart next.g := Session.call_nodesApart cached.apart called
  cases called
  rcases found : s.g.tHead.find? (·.tid = tid) with _ | t
  · have absent : tid ∉ (nodeIds s.g).map Prod.fst := by
      intro member
      obtain ⟨cell, listed, rfl⟩ := List.mem_map.mp member
      obtain ⟨t, there, rfl⟩ := List.mem_map.mp listed
      simpa using List.find?_eq_none.mp found t there
    have same : registerThread k s.g (s.settled k pending).w tid =
        registerThread k s.g s.w tid := by
      unfold registerThread GlobalState.getregs
      rw [getregs_settled writes absent]
    obtain ⟨settled, files, fresh⟩ :=
      settledOs_register (k := k) cached found s.w s.w.os rfl
    refine ⟨?_, apart, fun file member => ?_, fun file member => ?_⟩
    · change some (Session.mk (registerThread k s.g (s.settled k pending).w tid).2 _ _) = _
      rw [same]
      exact congrArg (fun os => some (Session.mk _ { s.w with os } _)) settled.symm
    · rw [files file (Nat.ne_of_lt (cached.allocated file member))]
      exact cached.accepted file member
    · rw [fresh]
      exact Nat.lt_succ_of_lt (cached.allocated file member)
  · have here (w : World K) : registerThread k s.g w tid = (t.regs, s.g) := by
      rw [registerThread, found]
    simp only [here] at apart ⊢
    refine ⟨?_, apart, cached.accepted, cached.allocated⟩
    change some (Session.mk (registerThread k s.g (s.settled k pending).w tid).2 _ _) = _
    rw [here]
    rfl

theorem nodeIds_unregister {tid : Int} {t : Thread}
    (found : s.g.tHead.find? (·.tid = tid) = some t) :
    nodeIds (unregisterThread s.g tid) = (nodeIds s.g).erase (t.tid, t.regs) := by
  have own : t.tid = tid := by simpa using List.find?_some found
  simp only [unregisterThread, found, nodeIds]
  generalize s.g.tHead = threads at found
  induction threads with
  | nil => cases found
  | cons first rest ih =>
      rw [List.find?_cons] at found
      by_cases here : first.tid = tid
      · simp only [here, decide_true, Option.some.injEq] at found
        subst found
        rw [List.erase_cons_head, List.map_cons, List.erase_cons_head]
      · simp only [here, decide_false] at found
        have different : first ≠ t := by
          rintro rfl
          exact here own
        have others : (first.tid, first.regs) ≠ (t.tid, t.regs) := by
          intro same
          exact here ((Prod.mk.inj same).1.trans own)
        rw [List.erase_cons_tail (by simpa using different), List.map_cons, List.map_cons,
          List.erase_cons_tail (by simpa using others), ih found]

theorem unregisterThread_step (cached : Cached accepts s pending) {tid : Int}
    (careful : LosesNothing accepts s pending (.unregisterThread tid))
    (called : s.call k pid (.unregisterThread tid) = some next) :
    (s.settled k pending).call k pid (.unregisterThread tid) = some (next.settled k pending) ∧
      Cached accepts next pending := by
  have apart : NodesApart next.g := Session.call_nodesApart cached.apart called
  cases called
  have kept : settledOs k pending (unregisterThread s.g tid) s.w.os =
      settledOs k pending s.g s.w.os ∧ (unregisterThread s.g tid).files = s.g.files ∧
      (unregisterThread s.g tid).fresh = s.g.fresh := by
    rcases found : s.g.tHead.find? (·.tid = tid) with _ | t
    · simp only [unregisterThread, found, and_self]
    · have own : t.tid = tid := by simpa using List.find?_some found
      have unassigned : t.regs ∉ pending := by
        have held := List.all_eq_true.mp careful t (List.mem_of_find?_eq_some found)
        simpa [own] using held
      refine ⟨?_, by simp only [unregisterThread, found], by simp only [unregisterThread, found]⟩
      rw [settledOs, nodeIds_unregister found, settleCells_erase (by simpa using unassigned),
        settledOs]
      simp only [unregisterThread, found]
  obtain ⟨settled, files, fresh⟩ := kept
  refine ⟨?_, apart, ?_, ?_⟩
  · simp only [Session.call, Session.settled, settled]
  · simp only [files]
    exact cached.accepted
  · simp only [fresh]
    exact cached.allocated

theorem writeRegs_step (writes : k.WritesRegisters accepts) (cached : Cached accepts s pending)
    {file : Ptr} {regs : UserRegs} (accepted : accepts regs = true)
    (called : s.call k pid (.writeRegs file regs) = some next) :
    (s.settled k pending).callThrough k pid (.writeRegs file regs) =
        some (next.settled k (stillPending s pending (.writeRegs file regs))) ∧
      Cached accepts next (stillPending s pending (.writeRegs file regs)) := by
  have apart : NodesApart next.g := Session.call_nodesApart cached.apart called
  cases called
  have values (written : List Ptr) (sub : ∀ other ∈ written, other = file ∨ other ∈ pending) :
      ∀ other ∈ written, accepts ((s.g.setFile file regs).files other) = true := by
    intro other member
    simp only [GlobalState.setFile]
    by_cases same : other = file
    · rw [same, Function.update_self]
      exact accepted
    · rw [Function.update_of_ne same]
      exact cached.accepted other ((sub other member).resolve_left same)
  rcases found : s.g.owner file with _ | t
  · have unowned : file ∉ (nodeIds s.g).map Prod.snd := by
      intro member
      obtain ⟨cell, listed, rfl⟩ := List.mem_map.mp member
      obtain ⟨t, there, rfl⟩ := List.mem_map.mp listed
      simpa using List.find?_eq_none.mp found t there
    have same : settledOs k pending (s.g.setFile file regs) s.w.os =
        settledOs k pending s.g s.w.os := by
      refine settleCells_congr fun cell member => ⟨rfl, fun _ => Function.update_of_ne ?_ _ _⟩
      rintro rfl
      exact unowned (List.mem_map_of_mem member)
    have still : stillPending s pending (.writeRegs file regs) = pending := by
      simp [stillPending, found]
    rw [still]
    refine ⟨?_, apart, values pending fun _ => .inr, cached.allocated⟩
    have state : (s.settled k pending).g = s.g := rfl
    simp only [Session.callThrough, state, found]
    simp only [Session.settled, same]
  · have owned : t ∈ s.g.tHead := List.mem_of_find?_eq_some found
    have own : t.regs = file := by simpa using List.find?_some found
    have still : stillPending s pending (.writeRegs file regs) = file :: pending := by
      simp [stillPending, found]
    have cell : (t.tid, file) ∈ nodeIds s.g := List.mem_map.mpr ⟨t, owned, by rw [own]⟩
    have put : k.putregs t.tid regs (settledOs k pending s.g s.w.os) =
        settledOs k (file :: pending) (s.g.setFile file regs) s.w.os := by
      rw [settledOs, writes.overwrites.settleCells_update
        (by simpa [nodeIds, Function.comp_def] using cached.apart.tids)
        (by simpa [nodeIds, Function.comp_def] using cached.apart.files) cell accepted]
      exact (settleCells_congr fun other _ => ⟨by simp, fun _ => rfl⟩).symm
    rw [still]
    refine ⟨?_, apart, values _ fun _ => List.mem_cons.mp, ?_⟩
    · have state : (s.settled k pending).g = s.g := rfl
      simp only [Session.callThrough, state, found, setregs_eq]
      simp only [Session.settled, put]
    · rintro other member
      rcases List.mem_cons.mp member with rfl | member
      · exact own ▸ cached.apart.allocated t owned
      · exact cached.allocated other member

theorem callThrough_eq (other : ∀ file regs, call ≠ .writeRegs file regs) :
    s.callThrough k pid call = s.call k pid call := by
  cases call with
  | writeRegs file regs => exact absurd rfl (other file regs)
  | _ => rfl

/-- **One call**: a careful one leads the two debuggers from states that differ by what is pending
to such states. -/
theorem callThrough_settled (writes : k.WritesRegisters accepts)
    (cached : Cached accepts s pending) (careful : LosesNothing accepts s pending call)
    (called : s.call k pid call = some next) :
    (s.settled k pending).callThrough k pid call =
        some (next.settled k (stillPending s pending call)) ∧
      Cached accepts next (stillPending s pending call) := by
  have apart : NodesApart next.g := Session.call_nodesApart cached.apart called
  have flushed : Cached accepts next [] := ⟨apart, by simp, by simp⟩
  cases call with
  | writeRegs file regs => exact writeRegs_step writes cached careful called
  | registerThread tid => exact registerThread_step writes cached tid called
  | unregisterThread tid => exact unregisterThread_step cached careful called
  | waitAllAndUpdateRegs fuel =>
      obtain rfl : pending = [] := List.isEmpty_iff.mp careful
      have still : stillPending s [] (.waitAllAndUpdateRegs fuel) = [] := rfl
      rw [still, settled_nil, settled_nil]
      exact ⟨called, flushed⟩
  | singlestep | stepUntil | contAllAndSetBps | steppingFinish =>
      rw [callThrough_eq (by simp), stillPending, settled_nil, ← called]
      exact ⟨resume_step writes cached trivial, flushed⟩
  | _ =>
      obtain ⟨-, files, fresh, -⟩ := call_quiet (by trivial) called
      rw [callThrough_eq (by simp)]
      refine ⟨quiet_step trivial called, apart, ?_, ?_⟩
      · rw [files]
        exact cached.accepted
      · rw [fresh]
        exact cached.allocated

end Calls

/-! ### Whole runs -/

/-- **The register cache cannot be seen.** A session in which no call loses a pending assignment is,
call by call, that of a debugger that hands every assignment on to the kernel at once; the two
differ in the registers that are still pending, and where none is they are in the same state. -/
theorem register_cache_transparent (writes : k.WritesRegisters accepts) {w : World K}
    {calls : List Call} {s : Session K} {pending : List Ptr}
    (reached : (cachedSession k pid accepts).run (.initial w, []) calls = some (s, pending)) :
    (session k pid).run (.initial w) calls = some s ∧
      (plainSession k pid).run (.initial w) calls = some (s.settled k pending) ∧
      (pending = [] → s.settled k pending = s) := by
  have initial : Cached accepts (Session.initial w) [] :=
    ⟨nodesApart_empty, by simp, by simp⟩
  have step {s next : Session K} {before after : List Ptr} {call : Call}
      (stepped : (cachedSession k pid accepts).step (s, before) call = some (next, after)) :
      LosesNothing accepts s before call ∧ s.call k pid call = some next ∧
        after = stillPending s before call := by
    simp only [cachedSession] at stepped
    split at stepped
    · obtain ⟨t, called, same⟩ := Option.map_eq_some_iff.mp stepped
      cases same
      exact ⟨‹_›, called, rfl⟩
    · cases stepped
  refine ⟨?_, ?_, ?_⟩
  · exact Machine.run_map (motive := fun _ => True) Prod.fst (fun _ _ _ _ stepped =>
      ⟨trivial, (step stepped).2.1⟩) trivial reached
  · have plain := Machine.run_map (N := plainSession k pid)
      (motive := fun s => Cached accepts s.1 s.2)
      (fun s : Session K × List Ptr => s.1.settled k s.2) (fun _ _ _ cached stepped => by
        obtain ⟨careful, called, same⟩ := step stepped
        obtain ⟨through, still⟩ := callThrough_settled writes cached careful called
        rw [same]
        exact ⟨still, through⟩) initial reached
    rwa [settled_nil] at plain
  · rintro rfl
    exact settled_nil s

/-- The registers of this kernel are a table. -/
theorem scripted_writesRegisters : scripted.WritesRegisters fun _ => true where
  again {os tid old os' new} _ written := by
    obtain ⟨regs, there, rfl⟩ := Option.map_eq_some_iff.mp written
    simp [scripted, there]
  possible {os tid other x os'} y different written := by
    obtain ⟨regs, there, rfl⟩ := Option.map_eq_some_iff.mp written
    simp [scripted, Function.update_of_ne different.symm]
  commute {os tid other x y os₁ os₂} different written also := by
    obtain ⟨mine, here, rfl⟩ := Option.map_eq_some_iff.mp written
    obtain ⟨yours, there, rfl⟩ := Option.map_eq_some_iff.mp also
    simp [scripted, Function.update_of_ne different, Function.update_of_ne different.symm, here,
      there, Function.update_comm different]
  getregs_other {os tid other regs os'} different written := by
    obtain ⟨mine, here, rfl⟩ := Option.map_eq_some_iff.mp written
    simp [scripted, Function.update_of_ne different.symm]

def withRax (value : Nat) : UserRegs := fun reg => if reg = .rax then value else 0

/-- The `rax` of a thread is assigned before it runs, and again when it has stopped. -/
def assignments : List Call :=
  [.registerThread 1, .writeRegs 0 (withRax 3), .writeRegs 0 (withRax 5), .contAllAndSetBps,
    .waitAllAndUpdateRegs 2, .registerBreakpoint 0x1000, .writeRegs 0 (withRax 7)]

def assigning : World Script := .nops
  { registers := fun tid => if tid = 1 then some (withRax 1) else none
    reports := [some ⟨1, 4991, .tracerStop⟩, none] }

/-- The kernel of the one has the assignment before the last, that of the other has the last. -/
theorem assignments_transparent : ∃ s t,
    (session scripted 1).run (.initial assigning) assignments = some s ∧
    (plainSession scripted 1).run (.initial assigning) assignments = some t ∧
    (s.w.os.registers 1).map (· .rax) = some 5 ∧ (t.w.os.registers 1).map (· .rax) = some 7 ∧
    s.g.files 0 .rax = 7 ∧ t.g.files 0 .rax = 7 := by
  obtain ⟨⟨s, pending⟩, reached, rfl, kernel, settled, file⟩ : ∃ s,
      (cachedSession scripted 1 fun _ => true).run (.initial assigning, []) assignments = some s ∧
      s.2 = [0] ∧ (s.1.w.os.registers 1).map (· .rax) = some 5 ∧
      ((s.1.settled scripted [0]).w.os.registers 1).map (· .rax) = some 7 ∧
      s.1.g.files 0 .rax = 7 := Machine.exists_of_run (by decide +kernel)
  obtain ⟨cached, plain, -⟩ := register_cache_transparent scripted_writesRegisters reached
  exact ⟨s, _, cached, plain, kernel, settled, file, file⟩

end Libdebug.Cffi
