import Libdebug.Ptrace.Tables
import Libdebug.Cffi.Injections
import Libdebug.Cffi.Nodes

/-!
Which signals threads are resumed with.

`_handle_change` stores the signal of every stop in the thread context, and forwards it
at the next `cont` to the threads in `threads_with_signals_to_forward`. So a thread that
is in the list when it stops for another reason than a delivery, or is put there by
such a stop, is resumed with the `SIGTRAP` of that stop. Where this does not happen
threads are resumed only with signals that were chosen for them.
-/

namespace Libdebug.Ptrace

open Libdebug.Foundation Libdebug.Cffi

variable {K : Type} (k : Kernel K) (u : UserCode K)

/-! ### Stops in order -/

/-- The thread context at a position is the one found by its id. -/
def Debugger.Current (s : Debugger K) (thread : Nat) : Prop :=
  ∀ id ∈ s.identities[thread]?, s.getThreadById id.1 = some thread

/-- A signal is set on a thread context that is found by its id. -/
def Debugger.Permits (s : Debugger K) : Action → Prop
  | .setSignal thread _ => s.Current thread
  | _ => True

instance (s : Debugger K) (action : Action) : Decidable (s.Permits action) := by
  unfold Debugger.Permits Debugger.Current
  cases action <;> infer_instance

/-- Functions of the user set signals on live threads only. -/
def SetsCurrent : Prop :=
  ∀ callback threadId s, ∀ action ∈ (u callback threadId s).1, s.Permits action

/-- A breakpoint is found for a trap of the thread, or the thread is not known. -/
def Debugger.accountsFor (s : Debugger K) (threadId : Int) : Bool :=
  match (s.getThreadById threadId).bind (s.threads[·]?) with
  | none => true
  | some thread =>
      match (findHit k threadId thread (s.readReg thread .rip)).run s with
      | .ok (some _) _ => true
      | _ => false

/-- The status handler knows a stop for one that delivers no signal. -/
def Debugger.Recognises (s : Debugger K) (st : ThreadStatus) : Prop :=
  wstopsig st.status = SIGSTOP ∨ wstopsig st.status = syscallSigtrap ∨
    wstopsig st.status = SIGTRAP ∧
      (s.accountsFor k st.tid = true ∨ s.resumeContext.isAStep = true ∨
        st.status / 256 ∈ [StopEvent.clone.value, StopEvent.seccomp.value, StopEvent.exit.value,
          StopEvent.fork.value])

/-- A stop that delivers no signal is known for one, and no signal is waiting to be
forwarded to the thread when the number of this one is stored. -/
def Debugger.StopInOrder (s : Debugger K) (st : ThreadStatus) (results : List ThreadStatus) :
    Prop :=
  wifstopped st.status = true → s.resumeContext.isStartup = false → st.cause ≠ .delivery →
    s.Recognises k st ∧
      Returning (internalSignalHandler k u st.tid (wstopsig st.status) results st.status)
        (fun _ t => st.tid ∉ t.resumeContext.threadsWithSignalsToForward) s

def Debugger.ChangesInOrder (results : List ThreadStatus) : List ThreadStatus → Debugger K → Prop
  | [], _ => True
  | st :: rest, s =>
      (s.setForwardSignal true).StopInOrder k u st results ∧
        Returning (handleChange k u st results) (fun _ t => ChangesInOrder results rest t) s

def Debugger.WaitInOrder (s : Debugger K) (fuel : Nat) : Prop :=
  Returning (waitResults k fuel) (fun results t =>
    (t.noteManaged results).ChangesInOrder k u results (results.filter (·.tid ≠ -1))) s

def Debugger.FinishInOrder (s : Debugger K) (fuel : Nat) (threadId : Int) (returnAddress : Nat) :
    Prop :=
  Returning (prepareFinish k threadId returnAddress) (fun _ t =>
    t.applies k = true ∧ Returning (cont k) (fun _ t => t.WaitInOrder k u fuel) t) s

def CommandInOrder (s : Debugger K) : Command → Prop
  | .setupParent fuel =>
      Debugger.WaitInOrder k u
        { s with resumeContext := { s.resumeContext with isStartup := true } } fuel
  | .act action => s.Permits action
  | .cont => s.applies k = true
  | .finish fuel threadId heuristic (some returnAddress) =>
      heuristic = "backtrace" → s.FinishInOrder k u fuel threadId returnAddress
  | .wait fuel => (s.setResume true).WaitInOrder k u fuel
  | _ => True

instance (s : Debugger K) (st : ThreadStatus) (results : List ThreadStatus) :
    Decidable (s.StopInOrder k u st results) := by
  unfold Debugger.StopInOrder Debugger.Recognises
  infer_instance

instance Debugger.ChangesInOrder.decidable (results : List ThreadStatus) :
    ∀ (rest : List ThreadStatus) (s : Debugger K), Decidable (s.ChangesInOrder k u results rest)
  | [], _ => .isTrue trivial
  | st :: rest, s =>
      have := decidable results rest
      inferInstanceAs (Decidable ((s.setForwardSignal true).StopInOrder k u st results ∧
        Returning (handleChange k u st results) (fun _ t => t.ChangesInOrder k u results rest) s))

instance (s : Debugger K) (fuel : Nat) : Decidable (s.WaitInOrder k u fuel) := by
  unfold Debugger.WaitInOrder
  infer_instance

instance : DecidableRel (CommandInOrder k u) := fun s command =>
  match command with
  | .finish _ _ _ (some _) | .finish _ _ _ none | .breakpoint .. | .cont | .registerNewThread _
  | .setupParent _ | .act _ | .handleSyscall .. | .catchSignal .. | .interrupt | .step _
  | .stepUntil .. | .wait _ => by
      unfold CommandInOrder Debugger.FinishInOrder
      infer_instance

/-! ### The thread contexts -/

section Contexts

namespace Debugger

variable {s t : Debugger K} {threadId : Int} {thread other : Nat}

theorem getThreadById_of_identities (same : t.identities = s.identities) (threadId : Int) :
    t.getThreadById threadId = s.getThreadById threadId := by
  have found (r : Debugger K) : r.getThreadById threadId =
      r.identities.findIdx? fun id => id.1 = threadId && !id.2.1 := by
    rw [getThreadById, identities, List.findIdx?_map]
    rfl
  rw [found, found, same]

/-- It is the first live thread context with the id. -/
theorem getThreadById_eq_some : s.getThreadById threadId = some thread ↔
    (∃ t, s.threads[thread]? = some t ∧ t.threadId = threadId ∧ t.dead = false) ∧
      ∀ other < thread, ∀ t, s.threads[other]? = some t →
        t.threadId = threadId → t.dead = true := by
  rw [getThreadById, List.findIdx?_eq_some_iff_getElem]
  constructor
  · rintro ⟨bound, here, before⟩
    refine ⟨⟨_, List.getElem?_eq_getElem bound, by simpa using here⟩,
      fun other earlier t found id => ?_⟩
    obtain ⟨inside, rfl⟩ := List.getElem?_eq_some_iff.mp found
    simpa [id] using before other earlier
  · rintro ⟨⟨t, found, here⟩, before⟩
    obtain ⟨bound, rfl⟩ := List.getElem?_eq_some_iff.mp found
    refine ⟨bound, by simpa using here, fun other earlier => ?_⟩
    simpa using before other earlier _ (List.getElem?_eq_getElem (earlier.trans bound))

/-- Two ids are found at different positions. -/
theorem getThreadById_ne {otherId : Int} (found : s.getThreadById threadId = some thread)
    (foundOther : s.getThreadById otherId = some other) (different : otherId ≠ threadId) :
    other ≠ thread := by
  rintro rfl
  obtain ⟨⟨t, here, id, -⟩, -⟩ := getThreadById_eq_some.mp found
  obtain ⟨⟨t', same, otherId, -⟩, -⟩ := getThreadById_eq_some.mp foundOther
  rw [here] at same
  cases same
  exact different (otherId.symm.trans id)

/-- The state in which a thread context has another signal number. -/
def withNumber (s : Debugger K) (thread signal : Nat) : Debugger K :=
  s.updateThread thread ({ · with signalNumber := signal })

theorem identities_withNumber (s : Debugger K) (thread signal : Nat) :
    (s.withNumber thread signal).identities = s.identities :=
  identities_updateThread s thread fun _ => rfl

theorem signalNumber_withNumber_self (found : s.getThreadById threadId = some thread)
    (signal : Nat) : (s.withNumber thread signal).signalNumber thread = signal := by
  obtain ⟨⟨t, here, -⟩, -⟩ := getThreadById_eq_some.mp found
  simp [withNumber, signalNumber, updateThread, here]

theorem signalNumber_withNumber_other (different : other ≠ thread) (signal : Nat) :
    (s.withNumber thread signal).signalNumber other = s.signalNumber other := by
  simp [withNumber, signalNumber, updateThread, different.symm]

end Debugger

end Contexts

/-! ### The invariant -/

/-- The number stored in the thread context is that of the signal waiting for it. -/
def Debugger.Agrees (s : Debugger K) (threadId : Int) : Prop :=
  ∀ thread, s.getThreadById threadId = some thread →
    s.signalNumber thread = 0 ∨ s.signalNumber thread = pendingSignal threadId s.world.log

/-- No number is stored in a live thread context that another one with its id hides. -/
def Debugger.HiddenUnset (s : Debugger K) : Prop :=
  ∀ thread t, s.threads[thread]? = some t → t.dead = false →
    s.getThreadById t.threadId ≠ some thread → s.signalNumber thread = 0

/-- Between two commands: nothing is stored in a node, and what is stored for a thread
in the list, or for one that is watched, is the signal that is waiting for it. -/
structure SignalsInOrder (watched : List Int) (s : Debugger K) : Prop where
  nodes : NodesApart s.globalState
  flushed : Flushed s.globalState.tHead
  waiting : ∀ threadId, threadId ∈ s.resumeContext.threadsWithSignalsToForward ∨
    threadId ∈ watched → s.Agrees threadId
  hidden : s.HiddenUnset
  chosen : OnlyChosen s.world.log

/-- The fields the invariant is about. -/
def signalFields : Finset Field := {.nodes, .threads, .injections, .pending}

section Frame

variable {s t : Debugger K} {F : Finset Field} {watched : List Int}

theorem agrees_congr {threadId : Int} (threads : t.threads = s.threads)
    (injected : injections t.world.log = injections s.world.log) (agrees : s.Agrees threadId) :
    t.Agrees threadId := by
  simp only [Debugger.Agrees, Debugger.getThreadById, Debugger.signalNumber, threads] at agrees ⊢
  rwa [← pendingSignal_injections, injected, pendingSignal_injections]

theorem hiddenUnset_congr (threads : t.threads = s.threads) (hidden : s.HiddenUnset) :
    t.HiddenUnset := by
  simpa only [Debugger.HiddenUnset, Debugger.getThreadById, Debugger.signalNumber, threads]
    using hidden

theorem SignalsInOrder.frame (inOrder : SignalsInOrder watched s)
    (changes : Changes Field.same F s t) (apart : ∀ field ∈ signalFields, field ∉ F) :
    SignalsInOrder watched t := by
  obtain ⟨nodes, fresh⟩ : t.globalState.tHead = s.globalState.tHead ∧
      t.globalState.fresh = s.globalState.fresh :=
    Prod.ext_iff.mp (changes .nodes (apart _ (by decide)))
  have threads : t.threads = s.threads := changes .threads (apart _ (by decide))
  have pending : t.resumeContext.threadsWithSignalsToForward =
      s.resumeContext.threadsWithSignalsToForward := changes .pending (apart _ (by decide))
  have injected : injections t.world.log = injections s.world.log :=
    changes .injections (apart _ (by decide))
  constructor
  · exact inOrder.nodes.congr nodes fresh
  · exact nodes ▸ inOrder.flushed
  · intro threadId member
    rw [pending] at member
    exact agrees_congr threads injected (inOrder.waiting threadId member)
  · exact hiddenUnset_congr threads inOrder.hidden
  · rw [← onlyChosen_injections, injected, onlyChosen_injections]
    exact inOrder.chosen

theorem Touches.inOrder {α : Type} {p : Py K α} (touches : Touches F p)
    (apart : ∀ field ∈ signalFields, field ∉ F) : Maintains (SignalsInOrder watched) p :=
  fun s inOrder => inOrder.frame (touches s) apart

theorem ignores_inOrder (apart : ∀ field ∈ signalFields, field ∉ F) :
    Ignores (Implies (SignalsInOrder (K := K) watched)) F :=
  fun _ _ changes inOrder => inOrder.frame changes apart

end Frame

/-! ### Storing a signal number -/

section Storing

variable {s t : Debugger K} {watched : List Int} {threadId : Int} {thread signal : Nat}

/-- A hidden thread context is not the one that is changed. -/
theorem hiddenUnset_withNumber (found : s.getThreadById threadId = some thread)
    (hidden : s.HiddenUnset) : (s.withNumber thread signal).HiddenUnset := by
  intro other t here live unfound
  rw [Debugger.getThreadById_of_identities (s.identities_withNumber _ _)] at unfound
  obtain ⟨⟨t', there, id, -⟩, -⟩ := Debugger.getThreadById_eq_some.mp found
  have different : other ≠ thread := by
    rintro rfl
    simp only [Debugger.withNumber, Debugger.updateThread, List.getElem?_modify_eq, there,
      Option.map_eq_map, Option.map_some, Option.some.injEq] at here
    exact unfound (by rw [← here, id, found])
  rw [Debugger.signalNumber_withNumber_other different]
  refine hidden other t ?_ live unfound
  simpa [Debugger.withNumber, Debugger.updateThread, different.symm] using here

/-- The numbers of the other threads stay, and so do the signals that wait for them. -/
theorem agrees_withNumber {otherId : Int} (found : s.getThreadById threadId = some thread)
    (different : otherId ≠ threadId) (threads : t.threads = (s.withNumber thread signal).threads)
    (pending : pendingSignal otherId t.world.log = pendingSignal otherId s.world.log)
    (agrees : s.Agrees otherId) : t.Agrees otherId := by
  intro other foundOther
  have sameId : t.getThreadById otherId = s.getThreadById otherId :=
    Debugger.getThreadById_of_identities
      ((congrArg _ threads).trans (s.identities_withNumber thread signal)) otherId
  rw [sameId] at foundOther
  have sameNumber : t.signalNumber other = s.signalNumber other := by
    have kept := Debugger.signalNumber_withNumber_other (s := s)
      (Debugger.getThreadById_ne found foundOther different) signal
    simpa only [Debugger.signalNumber, threads] using kept
  rw [sameNumber, pending]
  exact agrees other foundOther

/-- The number of a signal that is chosen is stored, and the thread may be put in the list. -/
theorem SignalsInOrder.choose (inOrder : SignalsInOrder watched s)
    (found : s.getThreadById threadId = some thread) (library : t.globalState = s.globalState)
    (threads : t.threads = (s.withNumber thread signal).threads)
    (log : t.world.log = .chose threadId signal :: s.world.log)
    (pending : ∀ otherId ∈ t.resumeContext.threadsWithSignalsToForward,
      otherId = threadId ∨ otherId ∈ s.resumeContext.threadsWithSignalsToForward) :
    SignalsInOrder (threadId :: watched) t where
  nodes := library ▸ inOrder.nodes
  flushed := library ▸ inOrder.flushed
  waiting otherId member := by
    by_cases same : otherId = threadId
    · subst same
      intro other foundOther
      have sameId : t.getThreadById otherId = s.getThreadById otherId :=
        Debugger.getThreadById_of_identities
          ((congrArg _ threads).trans (s.identities_withNumber thread signal)) otherId
      rw [sameId, found] at foundOther
      cases foundOther
      have stored := Debugger.signalNumber_withNumber_self found signal
      simp only [Debugger.signalNumber, ← threads] at stored
      right
      rw [Debugger.signalNumber, stored, log, pendingSignal, if_pos rfl]
    · refine agrees_withNumber found same threads ?_ (inOrder.waiting otherId ?_)
      · rw [log, pendingSignal, if_neg (Ne.symm same)]
      · rcases member with listed | watched
        · exact .inl ((pending otherId listed).resolve_left same)
        · exact .inr ((List.mem_cons.mp watched).resolve_left same)
  hidden := hiddenUnset_congr threads (hiddenUnset_withNumber found inOrder.hidden)
  chosen := by
    rw [log]
    exact inOrder.chosen

/-- The number of a stop that delivers nothing is stored for a thread no signal waits for. -/
theorem SignalsInOrder.store (inOrder : SignalsInOrder [] s)
    (found : s.getThreadById threadId = some thread)
    (unlisted : threadId ∉ s.resumeContext.threadsWithSignalsToForward) :
    SignalsInOrder [] (s.withNumber thread signal) where
  nodes := inOrder.nodes
  flushed := inOrder.flushed
  waiting otherId member := by
    have listed : otherId ∈ s.resumeContext.threadsWithSignalsToForward :=
      member.resolve_right List.not_mem_nil
    have different : otherId ≠ threadId := fun same => unlisted (same ▸ listed)
    exact agrees_withNumber found different rfl rfl (inOrder.waiting otherId (.inl listed))
  hidden := hiddenUnset_withNumber found inOrder.hidden
  chosen := inOrder.chosen

theorem SignalsInOrder.mono {fewer : List Int} (inOrder : SignalsInOrder watched s)
    (sub : fewer ⊆ watched) : SignalsInOrder fewer s :=
  ⟨inOrder.nodes, inOrder.flushed,
    fun threadId member => inOrder.waiting threadId (member.imp_right fun fewer => sub fewer),
    inOrder.hidden, inOrder.chosen⟩

end Storing

/-! ### Functions of the user -/

section Calls

variable {u : UserCode K} {watched : List Int}

theorem permits_of_identities {s t : Debugger K} (same : t.identities = s.identities)
    (action : Action) (permitted : s.Permits action) : t.Permits action := by
  cases action with
  | setSignal thread signal =>
      intro id member
      rw [same] at member
      rw [Debugger.getThreadById_of_identities same]
      exact permitted id member
  | _ => trivial

theorem perform_inOrder {s : Debugger K} {action : Action} (permitted : s.Permits action)
    (inOrder : SignalsInOrder watched s) : SignalsInOrder watched (s.perform action) := by
  cases action with
  | setSignal thread signal =>
      simp only [Debugger.perform, Debugger.setSignal]
      rcases here : s.threads[thread]? with _ | t
      · exact inOrder
      · have found : s.getThreadById t.threadId = some thread := by
          refine permitted (t.threadId, t.dead, t.registerFile) ?_
          simp [Debugger.identities, here]
        suffices chosen : SignalsInOrder (t.threadId :: watched) _ from
          chosen.mono (List.subset_cons_self _ _)
        refine inOrder.choose found rfl rfl rfl fun otherId listed => ?_
        rcases List.mem_append.mp listed with before | here
        · exact .inr before
        · exact .inl (List.mem_singleton.mp here)
  | enableBreakpoint bp =>
      exact inOrder.frame (F := ∅) (changes_updateBreakpoint
        (f := ({ · with enabled := true, changed := true })) s bp
          fun _ => ⟨⟨rfl, rfl, rfl, rfl⟩, .inr rfl⟩)
        (by decide)
  | disableBreakpoint bp =>
      exact inOrder.frame (F := ∅) (changes_updateBreakpoint
        (f := ({ · with enabled := false, changed := true })) s bp
          fun _ => ⟨⟨rfl, rfl, rfl, rfl⟩, .inr rfl⟩)
        (by decide)
  | setRegister | enableHandler | disableHandler | enableCatcher | disableCatcher | pokeMemory =>
      refine inOrder.frame (F := ∅) (fun field _ => ?_) (by decide)
      cases field with
      | objects => exact refl_of Debugger.Toggles s
      | _ => rfl

theorem performAll_inOrder {s : Debugger K} {actions : List Action}
    (permitted : ∀ action ∈ actions, s.Permits action) (inOrder : SignalsInOrder watched s) :
    SignalsInOrder watched (s.performAll actions) := by
  induction actions generalizing s with
  | nil => exact inOrder
  | cons action rest ih =>
      obtain ⟨here, later⟩ := List.forall_mem_cons.mp permitted
      refine ih (fun next member => ?_) (perform_inOrder here inOrder)
      exact permits_of_identities (s.identities_perform action) next (later next member)

theorem runCallback_inOrder (setsCurrent : SetsCurrent u) (site : CallSite) (callback : Callback)
    (threadId : Int) :
    Maintains (SignalsInOrder watched) (runCallback u site callback threadId) := by
  intro s inOrder
  rw [stateAfter_runCallback]
  refine performAll_inOrder (setsCurrent _ _ _) ?_
  exact ⟨inOrder.nodes, inOrder.flushed, inOrder.waiting, inOrder.hidden, inOrder.chosen⟩

end Calls

/-! ### New and dead threads -/

section Threads

variable {k : Kernel K} {s : Debugger K} {watched : List Int}

theorem flushed_registerThread {g : GlobalState} (flushed : Flushed g.tHead) (w : World K)
    (threadId : Int) : Flushed (registerThread k g w threadId).2.tHead := by
  simp only [registerThread]
  split
  · exact flushed
  · simp only [Flushed, GlobalState.getregs_tHead, List.forall_mem_cons, true_and]
    exact flushed

theorem flushed_unregisterThread {g : GlobalState} (flushed : Flushed g.tHead) (threadId : Int) :
    Flushed (Cffi.unregisterThread g threadId).tHead := by
  unfold Cffi.unregisterThread
  split
  · exact flushed
  · exact fun t member => flushed t (List.mem_of_mem_erase member)

/-- The id of the new thread may be in use; then its context is hidden. -/
theorem insertNewThread_found {threadId newId : Int} {file : Ptr} {thread : Nat}
    (found : (s.insertNewThread newId file).getThreadById threadId = some thread) :
    s.getThreadById threadId = some thread ∨ thread = s.threads.length := by
  simp only [Debugger.insertNewThread, Debugger.getThreadById, List.findIdx?_append] at found
  rw [Debugger.getThreadById]
  rcases old : s.threads.findIdx? (fun thread => thread.threadId = threadId && !thread.dead)
    with _ | index
  · rw [old] at found
    obtain ⟨-, last⟩ : newId = threadId ∧ s.threads.length = thread := by simpa using found
    exact .inr last.symm
  · rw [old] at found
    obtain rfl : index = thread := by simpa using found
    exact .inl old

theorem insertNewThread_number (newId : Int) (file : Ptr) (thread : Nat) :
    (s.insertNewThread newId file).signalNumber thread = s.signalNumber thread := by
  simp only [Debugger.insertNewThread, Debugger.signalNumber, List.getElem?_append]
  split
  · rfl
  · rename_i outside
    rw [List.getElem?_eq_none (not_lt.mp outside)]
    rcases thread - s.threads.length with _ | _ <;> rfl

theorem SignalsInOrder.insertNewThread (inOrder : SignalsInOrder watched s) (newId : Int)
    (file : Ptr) : SignalsInOrder watched (s.insertNewThread newId file) where
  nodes := inOrder.nodes
  flushed := inOrder.flushed
  waiting threadId member thread found := by
    rw [insertNewThread_number]
    rcases insertNewThread_found found with old | rfl
    · exact inOrder.waiting threadId member thread old
    · left
      simp [Debugger.signalNumber]
  hidden thread t here live unfound := by
    rw [insertNewThread_number]
    simp only [Debugger.insertNewThread, List.getElem?_append] at here
    split at here
    · refine inOrder.hidden thread t here live fun found => unfound ?_
      simp only [Debugger.getThreadById] at found
      simp [Debugger.insertNewThread, Debugger.getThreadById, List.findIdx?_append, found]
    · rename_i outside
      simp [Debugger.signalNumber, List.getElem?_eq_none (not_lt.mp outside)]
  chosen := inOrder.chosen

theorem registerNewThread_inOrder (threadId : Int) :
    Maintains (SignalsInOrder watched) (registerNewThread k threadId) := by
  refine Keeps.bind (fun s inOrder => ?_) fun file => Keeps.bind (Keeps.modify fun s inOrder =>
    inOrder.insertNewThread threadId file) fun _ => Keeps.get.bind fun s => Keeps.forM fun bp _ =>
      (installBreakpoint_touches _ bp).inOrder (by decide)
  exact ⟨inOrder.nodes.registerThread s.world threadId,
    flushed_registerThread inOrder.flushed s.world threadId, inOrder.waiting, inOrder.hidden,
    inOrder.chosen⟩

/-- The thread contexts after one has died. -/
theorem setThreadAsDead_threads {threadId : Int} {exitCode exitSignal : Option Nat} {thread : Nat}
    {t : ThreadContext}
    (here : (s.setThreadAsDead threadId exitCode exitSignal).threads[thread]? = some t)
    (live : t.dead = false) : s.threads[thread]? = some t := by
  unfold Debugger.setThreadAsDead at here
  split at here
  · exact here
  · simp only [Debugger.updateThread, List.getElem?_modify] at here
    split at here
    · obtain ⟨old, -, rfl⟩ := Option.map_eq_some_iff.mp here
      simp at live
    · simpa using here

theorem SignalsInOrder.setThreadAsDead (inOrder : SignalsInOrder watched s) (threadId : Int)
    (exitCode exitSignal : Option Nat) :
    SignalsInOrder watched (s.setThreadAsDead threadId exitCode exitSignal) := by
  set s' := s.setThreadAsDead threadId exitCode exitSignal with after
  have same : s'.globalState = s.globalState ∧ s'.resumeContext = s.resumeContext ∧
      s'.world = s.world := by
    rw [after, Debugger.setThreadAsDead]
    split <;> exact ⟨rfl, rfl, rfl⟩
  obtain ⟨library, resume, world⟩ := same
  have number (thread : Nat) : s'.signalNumber thread = s.signalNumber thread := by
    rw [after, Debugger.setThreadAsDead]
    split
    · rfl
    · simp only [Debugger.updateThread, Debugger.signalNumber, List.getElem?_modify]
      split <;> simp [Function.comp_def]
  constructor
  · exact library ▸ inOrder.nodes
  · exact library ▸ inOrder.flushed
  · intro otherId member thread found
    rw [number, world]
    obtain ⟨⟨t, here, id, live⟩, -⟩ := Debugger.getThreadById_eq_some.mp found
    have before := setThreadAsDead_threads here live
    -- it was found before, or one that has died hid it
    by_cases visible : s.getThreadById otherId = some thread
    · exact inOrder.waiting otherId (resume ▸ member) thread visible
    · exact .inl (inOrder.hidden thread t before live (id ▸ visible))
  · intro thread t here live unfound
    rw [number]
    refine inOrder.hidden thread t (setThreadAsDead_threads here live) live
      fun visible => unfound ?_
    refine Debugger.getThreadById_eq_some.mpr ⟨⟨t, here, rfl, live⟩,
      fun other earlier t' there id => ?_⟩
    by_contra alive
    have alive := Bool.eq_false_of_not_eq_true alive
    exact absurd ((Debugger.getThreadById_eq_some.mp visible).2 other earlier t'
      (setThreadAsDead_threads there alive) id) (by simp [alive])
  · rw [world]
    exact inOrder.chosen

theorem unregisterThread_inOrder (threadId : Int) (exitCode exitSignal : Option Nat) :
    Maintains (SignalsInOrder watched)
      (unregisterThread threadId exitCode exitSignal : Py K Unit) := by
  refine Keeps.bind (fun s inOrder => ?_) fun _ => Keeps.bind (Keeps.modify fun s inOrder =>
    inOrder.setThreadAsDead threadId exitCode exitSignal) fun _ =>
      (popHelper_touches _).inOrder (by decide)
  exact ⟨inOrder.nodes.unregisterThread threadId,
    flushed_unregisterThread inOrder.flushed threadId, inOrder.waiting, inOrder.hidden,
    inOrder.chosen⟩

end Threads

/-! ### Stops -/

section Stops

variable {k : Kernel K} {u : UserCode K} {watched : List Int} {s t : Debugger K} {pid : Int}

theorem internalSignalHandler_inOrder (setsCurrent : SetsCurrent u) (pid : Int) (signum : Nat)
    (results : List ThreadStatus) (status : Nat) :
    Maintains (SignalsInOrder watched) (internalSignalHandler k u pid signum results status) :=
  internalSignalHandler_keeps (ignores_inOrder (by decide))
    (fun site callback threadId => runCallback_inOrder setsCurrent site callback threadId)
    pid signum results status fun _ => registerNewThread_inOrder

theorem handleSignal_inOrder (setsCurrent : SetsCurrent u) (thread : Nat) (threadId : Int) :
    Maintains (SignalsInOrder watched) (handleSignal u thread threadId) :=
  handleSignal_keeps
    (fun number f => (updateCatcher_touches number f).keeps (ignores_inOrder (F := ∅) (by decide)))
    (stops_keeps (ignores_inOrder (by decide)))
    (fun site callback threadId => runCallback_inOrder setsCurrent site callback threadId)
    thread threadId

theorem creditHit_unforwarded (threadId : Int) (bp : Ref) (s : Debugger K) :
    (stateAfter (creditHit u threadId bp) s).forwardSignal = false := by
  rw [creditHit, stateAfter_modify_bind, stateAfter_get_bind]
  split
  · exact runCallback_touches _ _ _ _ .forwardSignal (by decide)
  · rfl

/-- A trap that a breakpoint accounts for is not forwarded. -/
theorem handleBreakpoints_unforwarded (accounts : s.accountsFor k pid = true)
    (returned : (handleBreakpoints k u pid).run s = .ok () t) : t.forwardSignal = false := by
  obtain ⟨_, _, read, returned⟩ := ok_of_bind returned
  cases read
  unfold Debugger.accountsFor at accounts
  rcases found : (s.getThreadById pid).bind (s.threads[·]?) with _ | thread
  · rw [found] at returned
    cases returned
    rfl
  · rw [found] at returned accounts
    obtain ⟨hit, after, hitFound, credited⟩ := ok_of_bind returned
    simp only [hitFound] at accounts
    cases hit with
    | none => simp at accounts
    | some bp =>
        rw [← stateAfter_of_ok credited]
        exact creditHit_unforwarded pid bp after

/-- An event that is known is not forwarded, and another is left to what came before. -/
theorem handleEvent_unforwarded {event : Nat} {results : List ThreadStatus}
    (returned : (handleEvent k pid event results).run s = .ok () t) :
    t.forwardSignal = false ∨ event ∉ [StopEvent.clone.value, StopEvent.seccomp.value,
      StopEvent.exit.value, StopEvent.fork.value] ∧ t = s := by
  unfold handleEvent at returned
  split at returned
  · obtain ⟨_, _, read, returned⟩ := ok_of_bind returned
    obtain ⟨_, _, cloned, returned⟩ := ok_of_bind returned
    cases returned
    exact .inl rfl
  · split at returned
    · cases returned
      exact .inl rfl
    · rename_i notClone notOther
      cases returned
      exact .inr ⟨by simp_all, rfl⟩

theorem handleBreakpoints_stepping (returned : (handleBreakpoints k u pid).run s = .ok () t) :
    t.resumeContext.isAStep = s.resumeContext.isAStep := by
  have keeps : Keeps (Changes Field.same {.threads, .injections, .pending, .forwardSignal})
      (handleBreakpoints k u pid) :=
    handleBreakpoints_keeps (fun _ _ changes => changes.mono (by decide))
      (fun _ _ _ => (runCallback_touches _ _ _).mono (by decide)) pid
  exact keeps.of_ok returned .stepping (by decide)

/-- A stop that is known for one that delivers no signal is not forwarded. -/
theorem recognised_unforwarded {st : ThreadStatus} {results : List ThreadStatus}
    (recognised : s.Recognises k st) (returned : (internalSignalHandler k u st.tid
      (wstopsig st.status) results st.status).run s = .ok () t) :
    wstopsig st.status = SIGSTOP ∨ t.forwardSignal = false := by
  rcases recognised with stopped | syscall | ⟨trap, cause⟩
  · exact .inl stopped
  · obtain ⟨_, _, read, returned⟩ := ok_of_bind returned
    rw [if_pos syscall] at returned
    obtain ⟨_, _, handled, returned⟩ := ok_of_bind returned
    cases returned
    exact .inr rfl
  · right
    obtain ⟨_, _, read, returned⟩ := ok_of_bind returned
    cases read
    rw [trap, if_neg (by decide), if_neg (fun stop => absurd stop.1 (by decide)), if_pos rfl]
      at returned
    obtain ⟨_, trapped, credited, returned⟩ := ok_of_bind returned
    obtain ⟨_, finished, stepped, returned⟩ := ok_of_bind returned
    rcases handleEvent_unforwarded returned with known | ⟨unknown, rfl⟩
    · exact known
    · cases stepped
      rcases cause with accounts | stepping | known
      · have forwarded := handleBreakpoints_unforwarded accounts credited
        dsimp only
        split
        · rfl
        · exact forwarded
      · have stillStepping := (handleBreakpoints_stepping credited).trans stepping
        simp only [stillStepping, if_true]
      · exact absurd known unknown

/-- The stop of a thread, at the moment its number is stored. -/
theorem handleStop_inOrder (setsCurrent : SetsCurrent u) {st : ThreadStatus} {signum : Nat}
    (stop : st.cause ≠ .delivery → st.tid ∉ s.resumeContext.threadsWithSignalsToForward ∧
      (signum = SIGSTOP ∨ s.forwardSignal = false))
    (inOrder : SignalsInOrder [] s) :
    SignalsInOrder [] (stateAfter (handleStop u st signum) s) := by
  rw [handleStop, stateAfter_bind_ok (run_getThreadById st.tid s)]
  rcases found : s.getThreadById st.tid with _ | thread
  · exact inOrder
  · rw [stateAfter_modify_bind]
    by_cases delivery : st.cause = .delivery
    · have received : SignalsInOrder [st.tid] (s.receive st thread signum) := by
        refine inOrder.choose found rfl rfl ?_ fun _ listed => .inr listed
        simp only [Debugger.receive, if_pos delivery, World.record_log]
      refine stateAfter_bind (fun e t raised => ?_) fun _ t returned => ?_
      · exact ((handleSignal_inOrder setsCurrent thread st.tid).of_error raised received).mono
          (List.nil_subset _)
      · have handled := (handleSignal_inOrder setsCurrent thread st.tid).of_ok returned received
        rw [appendSignalToForward, stateAfter_modify]
        split
        · refine ⟨handled.nodes, handled.flushed, fun otherId member => ?_, handled.hidden,
            handled.chosen⟩
          refine handled.waiting otherId ?_
          simpa using member
        · exact handled.mono (List.nil_subset _)
    · obtain ⟨unlisted, unforwarded⟩ := stop delivery
      have received : SignalsInOrder [] (s.receive st thread signum) := by
        have stored : SignalsInOrder [] (s.withNumber thread signum) := inOrder.store found unlisted
        simp only [Debugger.receive, if_neg delivery]
        exact ⟨stored.nodes, stored.flushed, stored.waiting, stored.hidden, stored.chosen⟩
      refine stateAfter_bind (fun e t raised => ?_) fun _ t returned => ?_
      · exact (handleSignal_inOrder setsCurrent thread st.tid).of_error raised received
      · have handled := (handleSignal_inOrder setsCurrent thread st.tid).of_ok returned received
        have still : t.forwardSignal = s.forwardSignal := by
          have keeps : Touches userFields (handleSignal u thread st.tid) :=
            handleSignal_keeps updateCatcher_touches (setResume_touches _) runCallback_touches _ _
          exact keeps.of_ok returned .forwardSignal (by decide)
        rw [appendSignalToForward, stateAfter_modify, if_neg]
        · exact handled
        · rw [still]
          rintro ⟨forwarded, different⟩
          exact unforwarded.elim different fun off => by simp [off] at forwarded

theorem handleChange_inOrder (setsCurrent : SetsCurrent u) {st : ThreadStatus}
    {results : List ThreadStatus} (stop : (s.setForwardSignal true).StopInOrder k u st results)
    (inOrder : SignalsInOrder [] s) :
    SignalsInOrder [] (stateAfter (handleChange k u st results) s) := by
  rw [handleChange, stateAfter_modify_bind, stateAfter_get_bind]
  replace inOrder : SignalsInOrder [] (s.setForwardSignal true) :=
    inOrder.frame (setForwardSignal_touches true s) (by decide)
  have exits (exitCode exitSignal : Option Nat) :
      Maintains (SignalsInOrder []) (handleExit st.tid exitCode exitSignal : Py K Unit) :=
    handleExit_keeps (fun _ _ _ => unregisterThread_inOrder _ _ _) _ _ _
  split
  · rename_i stopped
    split
    · exact inOrder
    · rename_i running
      refine stateAfter_bind (fun e t raised => ?_) fun _ t returned => ?_
      · exact (internalSignalHandler_inOrder setsCurrent _ _ _ _).of_error raised inOrder
      · refine handleStop_inOrder setsCurrent (fun other => ?_)
          ((internalSignalHandler_inOrder setsCurrent _ _ _ _).of_ok returned inOrder)
        obtain ⟨recognised, unlisted⟩ := stop stopped (Bool.eq_false_of_not_eq_true running) other
        exact ⟨unlisted _ _ returned, recognised_unforwarded recognised returned⟩
  · split
    · exact exits _ _ _ inOrder
    · split
      · exact exits _ _ _ inOrder
      · exact inOrder

theorem changes_inOrder (setsCurrent : SetsCurrent u) {results rest : List ThreadStatus}
    (changes : s.ChangesInOrder k u results rest) (inOrder : SignalsInOrder [] s) :
    SignalsInOrder [] (stateAfter (rest.forM fun st => handleChange k u st results) s) := by
  induction rest generalizing s with
  | nil => exact inOrder
  | cons st rest ih =>
      obtain ⟨stop, later⟩ := changes
      have handled := handleChange_inOrder setsCurrent stop inOrder
      refine stateAfter_bind (fun e t raised => ?_) fun _ t returned => ?_
      · rwa [stateAfter_of_error raised] at handled
      · rw [stateAfter_of_ok returned] at handled
        exact ih (later _ _ returned) handled

theorem wait_inOrder (setsCurrent : SetsCurrent u) {fuel : Nat} (waits : s.WaitInOrder k u fuel)
    (inOrder : SignalsInOrder [] s) : SignalsInOrder [] (stateAfter (wait k u fuel) s) := by
  have collects : Maintains (SignalsInOrder []) (waitResults k fuel) :=
    (waitResults_touches fuel).inOrder (by decide)
  refine stateAfter_bind (fun e t raised => collects.of_error raised inOrder)
    fun results t returned => ?_
  rw [stateAfter_modify_bind]
  have noted := (collects.of_ok returned inOrder).frame (noteManaged_touches results t) (by decide)
  exact changes_inOrder setsCurrent (waits _ _ returned) noted

end Stops

/-! ### Forwarding -/

section Forwarding

variable {k : Kernel K} {s t : Debugger K}

/-- While signals are forwarded: what is stored in a node is the signal that waits for
its thread as well. -/
structure ForwardingInOrder (ids : List (Int × Ptr)) (s : Debugger K) : Prop where
  nodes : NodesApart s.globalState
  ids : nodeIds s.globalState = ids
  forwarding : Forwarding s.globalState.tHead s.world.log
  waiting : ∀ threadId ∈ s.resumeContext.threadsWithSignalsToForward, s.Agrees threadId
  hidden : s.HiddenUnset
  chosen : OnlyChosen s.world.log

theorem SignalsInOrder.forwardingInOrder (inOrder : SignalsInOrder [] s) :
    ForwardingInOrder (nodeIds s.globalState) s where
  nodes := inOrder.nodes
  ids := rfl
  forwarding t member := .inl (inOrder.flushed t member)
  waiting threadId listed := inOrder.waiting threadId (.inl listed)
  hidden := inOrder.hidden
  chosen := inOrder.chosen

theorem forwardSignalTo_inOrder {ids : List (Int × Ptr)} {node : Thread}
    (member : (node.tid, node.regs) ∈ ids) :
    Maintains (ForwardingInOrder ids) (forwardSignalTo node : Py K Unit) := by
  refine Keeps.get_bind fun s inOrder => ?_
  split
  · rename_i listed
    rcases found : s.getThreadById node.tid with _ | thread
    · exact inOrder
    · dsimp only
      split
      · rename_i stored
        have waits : s.signalNumber thread = pendingSignal node.tid s.world.log :=
          (inOrder.waiting _ listed thread found).resolve_left stored.1
        have sameIds := nodeIds_forward s.globalState node.regs (s.signalNumber thread)
        rw [stateAfter_modify]
        refine ⟨?_, sameIds.trans inOrder.ids, fun t there => ?_, fun otherId listed => ?_, ?_, ?_⟩
        · exact inOrder.nodes.of_ids sameIds rfl
        · obtain ⟨old, before, rfl⟩ := List.mem_map.mp there
          split
          · rename_i sameFile
            -- the file belongs to one node only
            obtain ⟨known, here, same⟩ := List.mem_map.mp (inOrder.ids.symm ▸ member :
              (node.tid, node.regs) ∈ nodeIds s.globalState)
            obtain ⟨sameId, file⟩ := Prod.ext_iff.mp same
            have one : old = known := List.inj_on_of_nodup_map inOrder.nodes.files before here
              (sameFile.trans file.symm)
            right
            rw [waits, one]
            exact congrArg (pendingSignal · s.world.log) sameId.symm
          · exact inOrder.forwarding old before
        · by_cases same : otherId = node.tid
          · subst same
            intro other foundOther
            have visible : s.getThreadById node.tid = some other :=
              (Debugger.getThreadById_of_identities (s.identities_withNumber thread 0) _).symm.trans
                foundOther
            rw [found] at visible
            cases visible
            exact .inl (Debugger.signalNumber_withNumber_self found 0)
          · exact agrees_withNumber found same rfl rfl (inOrder.waiting otherId listed)
        · exact hiddenUnset_withNumber found inOrder.hidden
        · exact inOrder.chosen
      · exact inOrder
  · exact inOrder

/-- After the loop nobody is in the list. -/
theorem forwardSignals_inOrder (inOrder : SignalsInOrder [] s)
    (returned : forwardSignals.run s = .ok () t) :
    ForwardingInOrder (nodeIds s.globalState) t ∧
      t.resumeContext.threadsWithSignalsToForward = [] := by
  obtain ⟨_, _, read, returned⟩ := ok_of_bind returned
  cases read
  split at returned
  · obtain ⟨_, _, read, returned⟩ := ok_of_bind returned
    cases read
    obtain ⟨_, forwarded, looped, returned⟩ := ok_of_bind returned
    cases returned
    have loop : Maintains (ForwardingInOrder (nodeIds s.globalState))
        (s.globalState.tHead.forM forwardSignalTo : Py K Unit) :=
      Keeps.forM fun node member => forwardSignalTo_inOrder (List.mem_map_of_mem member)
    have after := loop.of_ok looped inOrder.forwardingInOrder
    exact ⟨⟨after.nodes, after.ids, after.forwarding, fun _ listed => by simp at listed,
      after.hidden, after.chosen⟩, rfl⟩
  · rename_i nobody
    cases returned
    exact ⟨inOrder.forwardingInOrder, not_not.mp nobody⟩

/-- The last part of `cont`, from a state in which the signals have been forwarded. -/
theorem SignalsInOrder.of_contAllAndSetBps {ids : List (Int × Ptr)}
    (forwarded : ForwardingInOrder ids s)
    (nobody : s.resumeContext.threadsWithSignalsToForward = []) :
    SignalsInOrder [] (stateAfter (callLib (contAllAndSetBps k)) s) where
  nodes := by
    have sameIds : nodeIds (stateAfter (callLib (contAllAndSetBps k)) s).globalState =
        nodeIds s.globalState := List.map_map ..
    exact forwarded.nodes.of_ids sameIds rfl
  flushed t member := by
    obtain ⟨old, -, rfl⟩ := List.mem_map.mp member
    rfl
  waiting threadId member := by
    rcases member with listed | watched
    · exact absurd (nobody ▸ listed : threadId ∈ []) List.not_mem_nil
    · exact absurd watched List.not_mem_nil
  hidden := forwarded.hidden
  chosen := onlyChosen_contAllAndSetBps forwarded.nodes.tids forwarded.forwarding forwarded.chosen

theorem ForwardingInOrder.frame {F : Finset Field} {ids : List (Int × Ptr)}
    (inOrder : ForwardingInOrder ids s) (changes : Changes Field.same F s t)
    (apart : ∀ field ∈ signalFields, field ∉ F) : ForwardingInOrder ids t := by
  obtain ⟨nodes, fresh⟩ : t.globalState.tHead = s.globalState.tHead ∧
      t.globalState.fresh = s.globalState.fresh :=
    Prod.ext_iff.mp (changes .nodes (apart _ (by decide)))
  have threads : t.threads = s.threads := changes .threads (apart _ (by decide))
  have pending : t.resumeContext.threadsWithSignalsToForward =
      s.resumeContext.threadsWithSignalsToForward := changes .pending (apart _ (by decide))
  have injected : injections t.world.log = injections s.world.log :=
    changes .injections (apart _ (by decide))
  constructor
  · exact inOrder.nodes.congr nodes fresh
  · exact (congrArg (List.map _) nodes).trans inOrder.ids
  · intro node member
    rw [← pendingSignal_injections, injected, pendingSignal_injections]
    exact inOrder.forwarding node (nodes ▸ member)
  · intro threadId listed
    rw [pending] at listed
    exact agrees_congr threads injected (inOrder.waiting threadId listed)
  · exact hiddenUnset_congr threads inOrder.hidden
  · rw [← onlyChosen_injections, injected, onlyChosen_injections]
    exact inOrder.chosen

theorem cont_inOrder (applies : s.applies k = true) (inOrder : SignalsInOrder [] s) :
    SignalsInOrder [] (stateAfter (cont k) s) := by
  unfold Debugger.applies at applies
  split at applies
  · rename_i t returned
    obtain ⟨_, forwarded, first, second⟩ := ok_of_bind returned
    obtain ⟨forwarding, nobody⟩ := forwardSignals_inOrder inOrder first
    have changes := applyChanges_touches.of_ok second
    rw [cont, stateAfter_bind_ok first, stateAfter_bind_ok second, stateAfter_modify_bind,
      stateAfter_modify_bind]
    have sameList : t.resumeContext.threadsWithSignalsToForward =
        forwarded.resumeContext.threadsWithSignalsToForward := changes .pending (by decide)
    have applied := forwarding.frame changes (by decide)
    refine stateAfter_bind (fun e r raised => ?_) fun result r called => ?_
    · cases raised
    · have resumed := SignalsInOrder.of_contAllAndSetBps (k := k)
        (s := { t with
          applied := t.snapshot :: t.applied
          globalState := { t.globalState with
            handleSyscallEnabled := handleSyscallEnabled t.handledSyscalls.values } })
        ⟨applied.nodes.congr rfl rfl, applied.ids,
          applied.forwarding, applied.waiting, applied.hidden, applied.chosen⟩
        (sameList.trans nobody)
      rw [stateAfter_of_ok called] at resumed
      exact (raiseErrnoIf_touches (F := ∅) _).inOrder (by decide) _ resumed
  · cases applies

end Forwarding

/-! ### Commands -/

section Commands

variable {k : Kernel K} {u : UserCode K} {s : Debugger K}

/-- A method of the C layer that resumes with no signal but those in the nodes. -/
theorem callLib_inOrder {α : Type} {f : GlobalState → World K → α × GlobalState × World K}
    (tHead : (f s.globalState s.world).2.1.tHead = s.globalState.tHead)
    (fresh : (f s.globalState s.world).2.1.fresh = s.globalState.fresh)
    (unsignalled : Unsignalled (f s.globalState s.world).2.2.log s.world.log)
    (inOrder : SignalsInOrder [] s) : SignalsInOrder [] (stateAfter (callLib f) s) where
  nodes := inOrder.nodes.congr tHead fresh
  flushed := by
    have same : (stateAfter (callLib f) s).globalState.tHead = s.globalState.tHead := tHead
    rw [same]
    exact inOrder.flushed
  waiting threadId member thread found := by
    have same : pendingSignal threadId (stateAfter (callLib f) s).world.log =
        pendingSignal threadId s.world.log := unsignalled.pending threadId
    rw [same]
    exact inOrder.waiting threadId member thread found
  hidden := inOrder.hidden
  chosen := unsignalled.chosen inOrder.chosen

theorem disableForStep_inOrder : Maintains (SignalsInOrder []) (disableForStep : Py K Unit) :=
  (disableForStep_touches (F := ∅)).inOrder (by decide)

theorem step_inOrder (threadId : Int) : Maintains (SignalsInOrder []) (step k threadId) := by
  refine disableForStep_inOrder.bind fun _ => Keeps.bind (fun s inOrder => ?_) fun result =>
    ((raiseErrnoIf_touches (F := ∅) _).inOrder (by decide)).bind fun _ =>
      Keeps.modify fun s inOrder =>
        ⟨inOrder.nodes, inOrder.flushed, inOrder.waiting, inOrder.hidden, inOrder.chosen⟩
  obtain ⟨same, unsignalled⟩ :=
    singlestep_unsignalled (k := k) s.world threadId inOrder.flushed
  exact callLib_inOrder (by rw [same]) (by rw [same]) unsignalled inOrder

theorem checkLoop_inOrder (result : Option Int) :
    Maintains (SignalsInOrder []) (checkLoop k result) :=
  (checkLoop_touches (F := ∅) result).inOrder (by decide)

theorem stepUntil_inOrder (fuel : Nat) (threadId : Int) (address : Nat) (maxSteps : Int) :
    Maintains (SignalsInOrder []) (stepUntil k fuel threadId address maxSteps) := by
  refine disableForStep_inOrder.bind fun _ => Keeps.bind (fun s inOrder => ?_) fun result =>
    checkLoop_inOrder result
  have performed := stepUntil_performs (k := k) fuel s.globalState s.world threadId address maxSteps
  exact callLib_inOrder performed.tHead performed.fresh (stepUntil_unsignalled ..) inOrder

theorem finishStepMode_inOrder (fuel : Nat) (threadId : Int) :
    Maintains (SignalsInOrder []) (finishStepMode k fuel threadId) := by
  refine Keeps.bind (fun s inOrder => ?_) fun result => checkLoop_inOrder result
  obtain ⟨tHead, fresh⟩ := Prod.ext_iff.mp
    (steppingFinish_changes (k := k) fuel threadId s .nodes (by decide))
  exact callLib_inOrder tHead fresh (steppingFinish_unsignalled ..) inOrder

theorem finishBacktrace_inOrder (setsCurrent : SetsCurrent u) {fuel : Nat} {threadId : Int}
    {returnAddress : Nat} (finishes : s.FinishInOrder k u fuel threadId returnAddress)
    (inOrder : SignalsInOrder [] s) :
    SignalsInOrder [] (stateAfter (finishBacktrace k u fuel threadId returnAddress) s) := by
  have prepares : Maintains (SignalsInOrder []) (prepareFinish k threadId returnAddress) :=
    (prepareFinish_touches threadId returnAddress).inOrder (by decide)
  refine stateAfter_bind (fun e t raised => prepares.of_error raised inOrder)
    fun ⟨bp, wasFound⟩ t returned => ?_
  obtain ⟨applies, waits⟩ := finishes _ _ returned
  have continued := cont_inOrder applies (prepares.of_ok returned inOrder)
  refine stateAfter_bind (fun e r raised => ?_) fun _ r resumed => ?_
  · rwa [stateAfter_of_error raised] at continued
  · rw [stateAfter_of_ok resumed] at continued
    have waited := wait_inOrder setsCurrent (waits _ _ resumed) continued
    refine stateAfter_bind (fun e q raised => ?_) fun _ q ended => ?_
    · rwa [stateAfter_of_error raised] at waited
    · rw [stateAfter_of_ok ended] at waited
      split
      · exact (unsetBreakpoint_touches bp true).inOrder (by decide) _ waited
      · exact waited

theorem program_inOrder (setsCurrent : SetsCurrent u) {command : Command}
    (commanded : CommandInOrder k u s command) (inOrder : SignalsInOrder [] s) :
    SignalsInOrder [] (stateAfter (command.program k u) s) := by
  cases command with
  | registerNewThread threadId => exact registerNewThread_inOrder threadId s inOrder
  | setupParent fuel =>
      simp only [Command.program, setupParent, stateAfter_modify_bind]
      have waited := wait_inOrder setsCurrent commanded
        ⟨inOrder.nodes, inOrder.flushed, inOrder.waiting, inOrder.hidden, inOrder.chosen⟩
      refine stateAfter_bind (fun e t raised => ?_) fun _ t returned => ?_
      · rwa [stateAfter_of_error raised] at waited
      · rw [stateAfter_of_ok returned] at waited
        exact ⟨waited.nodes, waited.flushed, waited.waiting, waited.hidden, waited.chosen⟩
  | act action => exact perform_inOrder commanded inOrder
  | breakpoint => exact (breakpoint_touches _ _ _ _ _ _).inOrder (by decide) s inOrder
  | handleSyscall number onEnter onExit recursive =>
      have maintains : Maintains (SignalsInOrder [])
          (Command.program k u (.handleSyscall number onEnter onExit recursive)) :=
        ensureAlive_keeps.bind fun _ =>
          (putHandler_touches (F := ∅) number onEnter onExit recursive).inOrder (by decide)
      exact maintains s inOrder
  | catchSignal => exact (catchSignal_touches (F := ∅) _ _ _).inOrder (by decide) s inOrder
  | interrupt =>
      exact ⟨inOrder.nodes, inOrder.flushed, inOrder.waiting, inOrder.hidden, inOrder.chosen⟩
  | cont => exact cont_inOrder commanded inOrder
  | step threadId => exact step_inOrder threadId s inOrder
  | stepUntil => exact stepUntil_inOrder _ _ _ _ s inOrder
  | finish fuel threadId heuristic returnAddress =>
      simp only [Command.program, finish]
      split
      · exact finishStepMode_inOrder fuel threadId s inOrder
      · split
        · rename_i backtrace
          cases returnAddress with
          | none => exact inOrder
          | some returnAddress =>
              exact finishBacktrace_inOrder setsCurrent (commanded backtrace) inOrder
        · exact inOrder
  | wait fuel =>
      simp only [Command.program, stateAfter_modify_bind]
      exact wait_inOrder setsCurrent commanded
        (inOrder.frame (setResume_touches (F := ∅) true s) (by decide))

end Commands

/-! ### Whole runs -/

/-- In a run in order threads are resumed only with signals chosen for them. -/
theorem only_chosen_signals_injected {k : Kernel K} {u : UserCode K} (setsCurrent : SetsCurrent u)
    {world : World K} (fresh : world.log = []) {commands : List Command} {s : Debugger K}
    (inOrder : (debugging k u).Meets (CommandInOrder k u) (.initial world) commands)
    (reached : (debugging k u).run (.initial world) commands = some s) :
    OnlyChosen s.world.log := by
  have initially : SignalsInOrder [] (Debugger.initial world) := by
    refine ⟨⟨List.nodup_nil, List.nodup_nil, ?_⟩, ?_, ?_, ?_, ?_⟩
    · simp [Debugger.initial, GlobalState.empty]
    · simp [Debugger.initial, GlobalState.empty, Flushed]
    · simp [Debugger.initial]
    · simp [Debugger.initial, Debugger.HiddenUnset]
    · simp only [Debugger.initial, fresh, OnlyChosen]
  refine (Machine.run_invariant (fun s command next holds commanded stepped => ?_) initially inOrder
    reached).chosen
  exact Debugger.stateAfter_of_command stepped ▸ program_inOrder setsCurrent commanded holds

/-- Thread 1 at `0x1000` is told of a `SIGUSR1` and then of the end of a step. -/
def signalThenStep : World Script :=
  .nops
    { registers := fun _ => some fun _ => 0x1000
      reports := [some ⟨1, 0x0a7f, .delivery⟩, none, some ⟨1, 0x057f, .singleStep⟩, none] }

/-- With a `cont` in between the signal is delivered, and nothing else. -/
theorem only_chosen_after_cont : ∃ s, (debugging scripted idle).run (.initial signalThenStep)
    [.registerNewThread 1, .wait 2, .cont, .step 1, .wait 2, .cont] = some s ∧
      OnlyChosen s.world.log := by
  obtain ⟨s, reached, -⟩ : ∃ s, (debugging scripted idle).run (.initial signalThenStep)
      [.registerNewThread 1, .wait 2, .cont, .step 1, .wait 2, .cont] = some s ∧ True :=
    Machine.exists_of_run (by decide +kernel)
  refine ⟨s, reached, only_chosen_signals_injected ?_ rfl (by decide +kernel) reached⟩
  exact fun _ _ _ _ member => absurd member List.not_mem_nil

/-- Stepping while the signal waits replaces it by the `SIGTRAP` of the step, which is
delivered at the next `cont`. -/
theorem step_trap_injected : ∃ s, (debugging scripted idle).run (.initial signalThenStep)
    [.registerNewThread 1, .wait 2, .step 1, .wait 2, .cont] = some s ∧
      ¬ OnlyChosen s.world.log :=
  Machine.exists_of_run (by decide +kernel)

end Libdebug.Ptrace
