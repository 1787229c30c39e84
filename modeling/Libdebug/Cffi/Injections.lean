import Libdebug.Cffi.History

/-!
With which signals threads are resumed: never with one that was not waiting for the
thread, as far as the C layer goes.

A signal is chosen for a thread by its delivery or by the user, and waits until the
thread is resumed with it. The stepping loops resume with no signal. `singlestep` and
`cont_all_and_set_bps` take the signal that is stored in the node of the thread.
-/

namespace Libdebug.Cffi

/-- The signal chosen for a thread and not delivered since; the history is newest first. -/
def pendingSignal (tid : Int) : List Event → Nat
  | [] => 0
  | .chose chosen signal :: rest => if chosen = tid then signal else pendingSignal tid rest
  | .stepped resumed signal _ :: rest | .resumed resumed signal _ :: rest =>
      if resumed = tid ∧ signal ≠ 0 then 0 else pendingSignal tid rest
  | .reaped .. :: rest | .managed .. :: rest => pendingSignal tid rest

/-- A thread was resumed with no signal, or with the one that was waiting for it. -/
def OnlyChosen : List Event → Prop
  | [] => True
  | .stepped tid signal _ :: rest | .resumed tid signal _ :: rest =>
      (signal = 0 ∨ signal = pendingSignal tid rest) ∧ OnlyChosen rest
  | .chose .. :: rest | .reaped .. :: rest | .managed .. :: rest => OnlyChosen rest

instance OnlyChosen.decidable : DecidablePred OnlyChosen
  | [] => .isTrue trivial
  | .stepped tid signal _ :: rest | .resumed tid signal _ :: rest =>
      have := decidable rest
      inferInstanceAs (Decidable ((signal = 0 ∨ signal = pendingSignal tid rest) ∧ OnlyChosen rest))
  | .chose .. :: rest | .reaped .. :: rest | .managed .. :: rest => decidable rest

/-- Both depend on the resumptions and the choices alone. -/
theorem pendingSignal_injections (tid : Int) (log : List Event) :
    pendingSignal tid (injections log) = pendingSignal tid log := by
  induction log with
  | nil => rfl
  | cons event rest ih =>
      rw [injections] at ih
      cases event <;> simp [injections, pendingSignal, ih]

theorem onlyChosen_injections (log : List Event) :
    OnlyChosen (injections log) ↔ OnlyChosen log := by
  induction log with
  | nil => exact Iff.rfl
  | cons event rest ih =>
      have same := fun tid => pendingSignal_injections tid rest
      rw [injections] at ih
      simp only [injections] at same
      cases event <;> simp [injections, OnlyChosen, ih, same]

variable {K : Type} {k : Kernel K} {allowed : Request → Prop} {s t : GlobalState × World K}

/-- The signal that a request passes on to the thread. -/
def Request.signal : Request → Nat
  | .singlestep _ signal | .cont _ _ signal => signal
  | _ => 0

/-- The first history is the second and some resumptions without a signal. -/
structure Unsignalled (later earlier : List Event) : Prop where
  pending : ∀ tid, pendingSignal tid later = pendingSignal tid earlier
  chosen : OnlyChosen earlier → OnlyChosen later

theorem Unsignalled.refl (log : List Event) : Unsignalled log log := ⟨fun _ => rfl, id⟩

theorem Unsignalled.trans {first second third : List Event} (later : Unsignalled third second)
    (earlier : Unsignalled second first) : Unsignalled third first :=
  ⟨fun tid => (later.pending tid).trans (earlier.pending tid), later.chosen ∘ earlier.chosen⟩

theorem Performs.unsignalled (performed : Performs k allowed s t)
    (unsignalled : ∀ request, allowed request → request.signal = 0) :
    Unsignalled t.2.log s.2.log := by
  refine performed.invariant (motive := fun t => Unsignalled t.2.log s.2.log) ?_ (.refl _)
  intro request t ok so
  refine Unsignalled.trans ?_ so
  have zero := unsignalled request ok
  rcases request.perform_log k t with same | ⟨event, noted, added⟩
  · rw [same]
    exact .refl _
  · rw [added]
    cases request <;> cases event <;> first | exact noted.elim | skip
    · obtain ⟨-, rfl⟩ := noted
      exact ⟨fun tid => by simp_all [pendingSignal, Request.signal],
        fun chosen => ⟨.inl zero, chosen⟩⟩
    · obtain ⟨-, rfl⟩ := noted
      exact ⟨fun tid => by simp_all [pendingSignal, Request.signal],
        fun chosen => ⟨.inl zero, chosen⟩⟩
    · exact ⟨fun tid => rfl, id⟩

/-- Every node has no signal to forward. -/
def Flushed (threads : List Thread) : Prop := ∀ t ∈ threads, t.signalToForward = 0

theorem takeSignal_of_flushed {threads : List Thread} (flushed : Flushed threads) (tid : Int) :
    takeSignal tid threads 0 = (0, threads) := by
  induction threads with
  | nil => rfl
  | cons t rest ih =>
      obtain ⟨zero, later⟩ := List.forall_mem_cons.mp flushed
      simp only [takeSignal, zero, ih later]
      rw [← zero]
      split <;> rfl

theorem singlestep_unsignalled {g : GlobalState} (w : World K) (tid : Int)
    (flushed : Flushed g.tHead) :
    (singlestep k g w tid).2.1 = g ∧ Unsignalled (singlestep k g w tid).2.2.log w.log := by
  have taken := takeSignal_of_flushed flushed tid
  simp only [singlestep, taken, true_and]
  have performed : Performs k (fun r => r.Flushing ∨ r = .singlestep tid 0) (g, w)
      (g, ((flushRegs k g w).singlestep k tid 0).2) :=
    ((flushRegs_performs g w).mono fun _ => .inl).trans
      (Performs.single (.singlestep tid 0) (.inr rfl))
  refine performed.unsignalled fun request ok => ?_
  rcases ok with flushing | rfl
  · cases request <;> first | rfl | exact flushing.elim
  · rfl

theorem Request.Stepping.unsignalled {site : WaitSite} {tid : Int} {request : Request}
    (stepping : request.Stepping site tid) : request.signal = 0 := by
  cases request <;> first | rfl | exact stepping.2 | exact stepping.elim

theorem Request.Flushing.unsignalled {request : Request} (flushing : request.Flushing) :
    request.signal = 0 := by
  cases request <;> first | rfl | exact flushing.elim

theorem Request.SteppingOver.unsignalled {g : GlobalState} {threads : List Thread}
    {request : Request} (stepping : request.SteppingOver g threads) : request.signal = 0 := by
  cases request <;> first | rfl | exact stepping.1 | exact stepping.elim

theorem stepUntil_unsignalled (fuel : Nat) (g : GlobalState) (w : World K) (tid : Int)
    (addr : Nat) (maxSteps : Int) :
    Unsignalled (stepUntil k fuel g w tid addr maxSteps).2.2.log w.log :=
  (stepUntil_performs fuel g w tid addr maxSteps).unsignalled fun _ ok =>
    ok.elim (·.unsignalled) (·.unsignalled)

theorem prepareForRun_unsignalled (g : GlobalState) (w : World K) :
    Unsignalled (prepareForRun k g w).2.log w.log := by
  obtain ⟨next, performed, ended⟩ := prepareForRun_spec (k := k) g w
  have stepped : Unsignalled next.log w.log := performed.unsignalled fun _ ok =>
    ok.elim (·.unsignalled) (·.unsignalled)
  rcases ended with gaveUp | ⟨status, -, armed⟩
  · rw [gaveUp]
    exact stepped
  · rw [armed, armBreakpoints_eq]
    exact stepped

theorem steppingFinish_unsignalled (fuel : Nat) (g : GlobalState) (w : World K) (tid : Int) :
    Unsignalled (steppingFinish k fuel g w tid).2.2.log w.log := by
  obtain ⟨g', w', performed, ended⟩ := steppingFinish_spec (k := k) fuel g w tid
  have stepped : Unsignalled w'.log w.log :=
    (performed.unsignalled fun _ => (·.unsignalled)).trans (prepareForRun_unsignalled g w)
  rcases ended with looping | failed | done
  · rw [looping]
    exact stepped
  · rw [failed]
    exact stepped
  · rw [done, restoreBreakpoints_eq]
    exact stepped

/-- Each node has no signal to forward, or the one that is waiting for its thread. -/
def Forwarding (threads : List Thread) (log : List Event) : Prop :=
  ∀ t ∈ threads, t.signalToForward = 0 ∨ t.signalToForward = pendingSignal t.tid log

/-- The loop resumes each thread once, so the signals of the others keep waiting. -/
theorem onlyChosen_resumeLoop {threads : List Thread} (distinct : (threads.map (·.tid)).Nodup)
    (syscalls : Bool) {w : World K} (forwarding : Forwarding threads w.log)
    (chosen : OnlyChosen w.log) :
    OnlyChosen (threads.foldl (fun w t => w.cont k syscalls t.tid t.signalToForward) w).log := by
  induction threads generalizing w with
  | nil => exact chosen
  | cons t rest ih =>
      obtain ⟨here, later⟩ := List.forall_mem_cons.mp forwarding
      obtain ⟨others, distinct⟩ := List.nodup_cons.mp distinct
      rw [List.foldl_cons]
      rcases (Request.cont syscalls t.tid t.signalToForward).perform_log k (⟨[], [], [], false,
        fun _ _ => 0, 0⟩, w) with same | ⟨event, noted, added⟩
      · simp only [Request.perform] at same
        exact ih distinct (by rwa [same]) (by rwa [same])
      · simp only [Request.perform] at added
        cases event <;> first | exact noted.elim | skip
        obtain ⟨rfl, rfl⟩ := noted
        refine ih distinct (fun other member => ?_) (by rw [added]; exact ⟨here, chosen⟩)
        have apart : t.tid ≠ other.tid := fun same =>
          others (List.mem_map.mpr ⟨other, member, same.symm⟩)
        rw [added, pendingSignal, if_neg (by simp [apart])]
        exact later other member

theorem onlyChosen_contAllAndSetBps {g : GlobalState} {w : World K}
    (distinct : (g.tHead.map (·.tid)).Nodup) (forwarding : Forwarding g.tHead w.log)
    (chosen : OnlyChosen w.log) : OnlyChosen (contAllAndSetBps k g w).2.2.log := by
  have prepared := prepareForRun_unsignalled (k := k) g w
  have stillForwarding : Forwarding g.tHead (prepareForRun k g w).2.log := fun t member => by
    rw [prepared.pending]
    exact forwarding t member
  exact onlyChosen_resumeLoop distinct _ stillForwarding (prepared.chosen chosen)

end Libdebug.Cffi
