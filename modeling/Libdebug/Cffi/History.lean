import Libdebug.Cffi.Requests

/-!
What the history of a world says: which statuses `waitpid` returned and where, which
were handed to the status handler, and how threads were resumed with which signals.
-/

namespace Libdebug.Cffi

/-- The statuses that `waitpid` returned at a site, newest first. -/
def reapedAt (site : WaitSite) (log : List Event) : List ThreadStatus :=
  log.filterMap fun
    | .reaped reaping status => if reaping = site then some status else none
    | _ => none

/-- The statuses handed to the status handler, newest first. -/
def managed (log : List Event) : List ThreadStatus :=
  log.filterMap fun
    | .managed status => some status
    | _ => none

/-- The events by which threads are resumed, and those by which signals are chosen. -/
def injections (log : List Event) : List Event :=
  log.filterMap fun
    | event@(.stepped ..) | event@(.resumed ..) | event@(.chose ..) => some event
    | _ => none

variable {K : Type} {k : Kernel K} {allowed : Request → Prop} {s t : GlobalState × World K}

namespace Performs

theorem reapedAt {site : WaitSite} (performed : Performs k allowed s t)
    (elsewhere : ∀ target nohang, ¬ allowed (.waitpid site target nohang)) :
    Cffi.reapedAt site t.2.log = Cffi.reapedAt site s.2.log := by
  refine performed.filterMap_log _ fun request event ok noted => ?_
  cases request <;> cases event <;> first | exact noted.elim | rfl | skip
  rename_i here target nohang reaping status
  have other : reaping ≠ site := fun same => elsewhere target nohang (same ▸ noted ▸ ok)
  simp [other]

theorem managed (performed : Performs k allowed s t) :
    Cffi.managed t.2.log = Cffi.managed s.2.log := by
  refine performed.filterMap_log _ fun request event _ noted => ?_
  cases request <;> cases event <;> first | exact noted.elim | rfl

theorem injections (performed : Performs k allowed s t)
    (still : ∀ tid signal, ¬ allowed (.singlestep tid signal))
    (stays : ∀ syscalls tid signal, ¬ allowed (.cont syscalls tid signal)) :
    Cffi.injections t.2.log = Cffi.injections s.2.log := by
  refine performed.filterMap_log _ fun request event ok noted => ?_
  cases request <;> cases event <;>
    first | exact noted.elim | rfl | exact absurd ok (still _ _) | exact absurd ok (stays _ _ _)

end Performs

/-! ### The list that `wait_all_and_update_regs` returns -/

variable {w next : World K}

/-- The statuses that the function has collected. -/
abbrev collected (log : List Event) : List ThreadStatus := reapedAt .waitAllAndUpdateRegs log

theorem collected_of_waitpid {target : Target} {nohang : Bool} {result : Option ThreadStatus}
    (waited : w.waitpid k .waitAllAndUpdateRegs target nohang = (result, next)) :
    collected next.log = result.toList ++ collected w.log := by
  unfold World.waitpid at waited
  split at waited <;>
  · obtain ⟨rfl, rfl⟩ := Prod.ext_iff.mp waited
    simp [collected, reapedAt]

section Collecting

variable (k) {status : ThreadStatus}

theorem interruptThreads_collects (reported : status.cause ≠ .unreported) (pid : Int)
    (threads : List Thread) (tempStatus : Nat)
    (head : ThreadStatus) (older : List ThreadStatus) (g : GlobalState) (w : World K) :
    (interruptThreads k pid threads tempStatus head older g w).1.count status +
        (collected w.log).count status =
      (head :: older).count status +
        (collected (interruptThreads k pid threads tempStatus head older g w).2.2.log).count
          status := by
  induction threads generalizing tempStatus head older g w with
  | nil => rfl
  | cons t rest ih =>
      simp only [interruptThreads]
      split
      · exact ih ..
      · split
        · exact ih ..
        · split
          · rename_i reaped after waited
            have later := ih reaped.status reaped (head :: older) g after
            rw [collected_of_waitpid waited, Option.toList_some, List.singleton_append] at later
            simp only [List.count_cons, World.tgkill] at later ⊢
            omega
          · rename_i after waited
            have later := ih tempStatus ⟨-1, tempStatus, .unreported⟩ (head :: older) g after
            rw [collected_of_waitpid waited, Option.toList_none, List.nil_append] at later
            have other : ⟨-1, tempStatus, .unreported⟩ ≠ status := fun same =>
              reported (by rw [← same])
            rw [List.count_cons_of_ne other] at later
            exact later

theorem drainStatuses_collects (status : ThreadStatus) (pid : Int) (fuel : Nat)
    (statuses : List ThreadStatus) (w : World K) {list : List ThreadStatus} {next : World K}
    (drained : drainStatuses k pid fuel statuses w = (some list, next)) :
    list.count status + (collected w.log).count status =
      statuses.count status + (collected next.log).count status := by
  induction fuel generalizing statuses w with
  | zero => simp [drainStatuses] at drained
  | succ fuel ih =>
      simp only [drainStatuses] at drained
      split at drained
      · rename_i after waited
        obtain ⟨rfl, rfl⟩ : statuses = list ∧ after = next := by simpa using drained
        rw [collected_of_waitpid waited, Option.toList_none, List.nil_append]
      · rename_i reaped after waited
        have later := ih (reaped :: statuses) after drained
        rw [collected_of_waitpid waited, Option.toList_some, List.singleton_append] at later
        simp only [List.count_cons] at later
        omega

/-- The list holds what has been collected since the call. -/
theorem waitAllAndUpdateRegs_collects (reported : status.cause ≠ .unreported) (fuel : Nat)
    (g : GlobalState) (w : World K) (pid : Int) {list : List ThreadStatus}
    {g' : GlobalState} {w' : World K}
    (returned : waitAllAndUpdateRegs k fuel g w pid = (.statuses list, g', w')) :
    (collected w'.log).count status = list.count status + (collected w.log).count status := by
  unfold waitAllAndUpdateRegs at returned
  split at returned
  · simp at returned
  · rename_i head first waited
    have interrupted := interruptThreads_collects k reported pid g.tHead 0 head [] g first
    rcases stopped : interruptThreads k pid g.tHead 0 head [] g first with ⟨stoppedList, g₁, w₁⟩
    simp only [stopped] at returned interrupted
    split at returned
    · simp at returned
    · rename_i drainedList after drained
      obtain ⟨rfl, rfl, rfl⟩ : drainedList = list ∧ _ = g' ∧ _ = w' := by simpa using returned
      have polled := drainStatuses_collects k status pid fuel _ _ drained
      rw [collected_of_waitpid waited, Option.toList_some, List.singleton_append] at interrupted
      simp only [restoreBreakpoints_eq, List.count_cons, List.count_nil] at *
      omega

end Collecting

/-- With a list of statuses at least one has been collected. -/
theorem waitAllAndUpdateRegs_grows (fuel : Nat) (g : GlobalState) (w : World K) (pid : Int)
    {list : List ThreadStatus} {g' : GlobalState} {w' : World K}
    (returned : waitAllAndUpdateRegs k fuel g w pid = (.statuses list, g', w')) :
    (collected w.log).length < (collected w'.log).length := by
  unfold waitAllAndUpdateRegs at returned
  split at returned
  · simp at returned
  · rename_i head first waited
    have interrupted := interruptThreads_performs (k := k) pid g.tHead 0 head [] g first
    rcases stopped : interruptThreads k pid g.tHead 0 head [] g first with ⟨stoppedList, g₁, w₁⟩
    have drained := drainStatuses_performs (k := k) pid fuel stoppedList g₁ w₁
    rw [stopped] at interrupted
    simp only [stopped] at returned
    split at returned
    · simp at returned
    · rename_i drainedList after polled
      rw [polled] at drained
      obtain ⟨-, -, rfl⟩ : drainedList = list ∧ _ = g' ∧ _ = w' := by simpa using returned
      have later : first.log <:+ after.log := (interrupted.trans drained).log
      have grown : (collected first.log).length ≤ (collected after.log).length :=
        (later.filterMap _).length_le
      have reported : collected first.log = head :: collected w.log := collected_of_waitpid waited
      rw [reported, List.length_cons] at grown
      simp only [restoreBreakpoints_eq]
      omega

theorem waitAllAndUpdateRegs_null (fuel : Nat) (g : GlobalState) (w : World K) (pid : Int)
    {g' : GlobalState} {w' : World K}
    (returned : waitAllAndUpdateRegs k fuel g w pid = (.null, g', w')) :
    collected w'.log = collected w.log := by
  unfold waitAllAndUpdateRegs at returned
  split at returned
  · rename_i after waited
    obtain ⟨-, rfl⟩ : g = g' ∧ after = w' := by simpa using returned
    rw [collected_of_waitpid waited, Option.toList_none, List.nil_append]
  · dsimp only at returned
    split at returned <;> simp at returned

end Libdebug.Cffi
