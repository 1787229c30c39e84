import Mathlib.Logic.Function.Basic
import Libdebug.Data.Lookups
import Libdebug.Foundation.Runs

/-!
What the debugger remembers of `/proc/pid`, over whole runs.

The maps are remembered for each process until the next stop of any; the path and the name are
remembered once and for all. The main thread may look a process up while it runs, for only the
access itself makes sure that the process is stopped; callbacks run in the polling thread, with
the process stopped. A lookup that finds nothing remembered reads the file first and remembers
its content afterwards, so the other thread may act in between.
-/

namespace Libdebug.InternalDebugger.ResolutionCache

open Libdebug.Foundation Libdebug.Data

/-- A content of a file of `/proc/pid` -/
abbrev Fact := (source : Source) × source.Value

/-- The process still shows this. -/
abbrev Shows (image : Image) (fact : Fact) : Prop := image.look fact.1 = fact.2

inductive Actor where
  | main
  | polling
  deriving DecidableEq

inductive Phase where
  /-- The process is stopped and the polling thread waits for a command. -/
  | idle
  | executing
  /-- `wait_all_and_update_regs` has returned: every thread of the process is stopped. -/
  | reported
  /-- The statuses are handled: callbacks run. -/
  | handling
  deriving DecidableEq

/-- An access or a breakpoint on its way -/
structure Pending where
  target : Target
  /-- The answers to its lookups -/
  used : List Fact := []
  /-- Read from `/proc`, and not remembered yet -/
  read : Option Fact := none

/-- An access to memory, and the process as it is then -/
structure Access where
  target : Target
  used : List Fact
  addresses : List Int
  image : Image

structure Caches where
  /-- `get_process_maps`, of each process -/
  maps : Int → Option (List MemoryMap) := fun _ => none
  /-- `_get_process_full_path` -/
  fullPath : Option String := none
  /-- `_get_process_name` -/
  name : Option String := none

structure State where
  processId : Int
  /-- What `/proc` shows of the process while it is alive -/
  image : Option Image
  phase : Phase
  /-- `run` or `attach` has not returned. -/
  starting : Bool
  caches : Caches
  pending : Actor → Option Pending
  /-- What has been accessed so far -/
  accesses : List Access

def State.initial : State where
  processId := 0
  image := none
  phase := .idle
  starting := false
  caches := {}
  pending := fun _ => none
  accesses := []

inductive Event where
  /-- `run` or `attach` has its process. -/
  | start (processId : Int) (image : Image)
  | kill
  /-- `cont` or `step` -/
  | cont
  /-- The process executes code; it may map files, execute another file, change its name. -/
  | execute (image : Image)
  /-- The process ends. -/
  | exit
  /-- `wait_all_and_update_regs` returns. -/
  | wait
  | invalidateProcessCache
  /-- `resume_context.resume` is true: the polling thread resumes the process by itself. -/
  | contAgain
  /-- The command of the polling thread ends. -/
  | setStopped
  | breakpoint (position : Position) (file : String)
  | access (actor : Actor) (target : Target)
  /-- A cached function is called: it returns what is remembered, or else reads the file. -/
  | look (actor : Actor)
  /-- The function returns, and its result is remembered. -/
  | remember (actor : Actor)
  /-- Memory is read or written. -/
  | perform (actor : Actor)
  /-- The access returns or raises. -/
  | finish (actor : Actor)

namespace Caches

def find (caches : Caches) (processId : Int) : Source → Option Fact
  | .maps => (caches.maps processId).map fun maps => ⟨.maps, maps⟩
  | .fullPath => caches.fullPath.map fun path => ⟨.fullPath, path⟩
  | .name => caches.name.map fun name => ⟨.name, name⟩

def remember (caches : Caches) (processId : Int) : Fact → Caches
  | ⟨.maps, maps⟩ => { caches with maps := Function.update caches.maps processId (some maps) }
  | ⟨.fullPath, path⟩ => { caches with fullPath := some path }
  | ⟨.name, name⟩ => { caches with name := some name }

/-- `invalidate_process_cache` -/
def invalidate (caches : Caches) : Caches := { caches with maps := fun _ => none }

end Caches

namespace Pending

/-- All it knows of the process -/
def facts (pending : Pending) : List Fact := pending.used ++ pending.read.toList

def answer (pending : Pending) (fact : Fact) : Pending :=
  { pending with used := pending.used ++ [fact], read := none }

variable (symbols : String → List MemoryMap → Except AccessError Int)

/-- What is left of the resolution -/
def program (pending : Pending) :
    Option (Asking Source Source.Value (Except AccessError (List Int))) :=
  Asking.follow pending.used (Resolving.resolve symbols pending.target).run

def asks (pending : Pending) : Option Source :=
  (pending.program symbols).bind Asking.question?

def resolved (pending : Pending) : Option (Except AccessError (List Int)) :=
  (pending.program symbols).bind Asking.result?

end Pending

namespace State

def setPending (s : State) (actor : Actor) (pending : Option Pending) : State :=
  { s with pending := Function.update s.pending actor pending }

/-- The main thread is free to call a method. -/
abbrev AtRest (s : State) : Prop :=
  s.phase = .idle ∧ s.starting = false ∧ (s.pending .main).isNone

/-- The debugger accesses memory only while the process is stopped: the main thread waits until
the polling thread is done. -/
def MayPerform (s : State) : Actor → Prop
  | .main => s.phase = .idle
  | .polling => s.phase = .handling

instance (s : State) : ∀ actor, Decidable (s.MayPerform actor)
  | .main => inferInstanceAs (Decidable (s.phase = .idle))
  | .polling => inferInstanceAs (Decidable (s.phase = .handling))

/-- The main thread is blocked while the process starts, and the polling thread runs nothing
else while it waits. -/
def MayAccess (s : State) : Actor → Prop
  | .main => s.starting = false
  | .polling => s.phase = .handling

instance (s : State) : ∀ actor, Decidable (s.MayAccess actor)
  | .main => inferInstanceAs (Decidable (s.starting = false))
  | .polling => inferInstanceAs (Decidable (s.phase = .handling))

end State

section Machine

variable (symbols : String → List MemoryMap → Except AccessError Int)

def look (s : State) (actor : Actor) : Option State := do
  let pending ← s.pending actor
  let source ← pending.asks symbols
  if pending.read.isSome then
    none
  else
    match s.caches.find s.processId source with
    | some fact => return s.setPending actor (pending.answer fact)
    | none =>
        -- the files of a process that has ended cannot be read
        let image ← s.image
        return s.setPending actor (some { pending with read := some ⟨source, image.look source⟩ })

def remember (s : State) (actor : Actor) : Option State := do
  let pending ← s.pending actor
  let fact ← pending.read
  return { s.setPending actor (pending.answer fact) with
    caches := s.caches.remember s.processId fact }

def perform (s : State) (actor : Actor) : Option State := do
  let pending ← s.pending actor
  let image ← s.image
  match pending.resolved symbols with
  | some (.ok addresses) =>
      if s.MayPerform actor then
        return { s with
          accesses := s.accesses ++ [⟨pending.target, pending.used, addresses, image⟩] }
      else
        none
  | _ => none

def step (s : State) : Event → Option State
  | .start processId image =>
      if s.AtRest ∧ s.image.isNone then
        some { s with processId, image := some image, phase := .executing, starting := true }
      else none
  | .kill => if s.AtRest then some { s with image := none } else none
  | .cont => if s.AtRest ∧ s.image.isSome then some { s with phase := .executing } else none
  | .execute image =>
      if s.phase = .executing ∧ s.image.isSome then some { s with image := some image } else none
  | .exit => some { s with image := none }
  | .wait => if s.phase = .executing then some { s with phase := .reported } else none
  | .invalidateProcessCache =>
      if s.phase = .reported then
        some { s with phase := .handling, caches := s.caches.invalidate }
      else none
  | .contAgain =>
      if s.phase = .handling ∧ (s.pending .polling).isNone then some { s with phase := .executing }
      else none
  | .setStopped =>
      if s.phase = .handling ∧ (s.pending .polling).isNone then
        -- `_setup_parent` clears the cache once more
        some { s with
          phase := .idle
          starting := false
          caches := if s.starting then s.caches.invalidate else s.caches }
      else none
  | .breakpoint position file =>
      if s.AtRest then
        some (s.setPending .main (some { target := .positions [position] file false }))
      else none
  | .access actor target =>
      if s.MayAccess actor ∧ (s.pending actor).isNone then
        some (s.setPending actor (some { target }))
      else none
  | .look actor => look symbols s actor
  | .remember actor => remember s actor
  | .perform actor => perform symbols s actor
  | .finish actor => some (s.setPending actor none)

def machine : Machine State Event := ⟨step symbols⟩

end Machine

/-! ### Accesses to the process as it is -/

/-- The access used nothing but what the process shows when it is made, and the addresses it was
made at are those that its positions stand for then. -/
def Access.Current (symbols : String → List MemoryMap → Except AccessError Int)
    (access : Access) : Prop :=
  (∀ fact ∈ access.used, Shows access.image fact) ∧
    (access.image.process symbols).resolve access.target = .ok access.addresses

/-- The path and the name are looked up only while what is remembered of them is so, and the
maps only while the process is stopped or what is remembered of them is so. While the main
thread has an access on its way, the process changes nothing that was looked up for it. -/
def Unchanged (symbols : String → List MemoryMap → Except AccessError Int) (s : State) :
    Event → Prop
  | .look actor =>
      ∀ pending ∈ s.pending actor, ∀ source ∈ pending.asks symbols,
        source = .maps ∧ s.MayPerform actor ∨
          ∀ image ∈ s.image, ∀ fact ∈ s.caches.find s.processId source, Shows image fact
  | .execute image => ∀ pending ∈ s.pending .main, ∀ fact ∈ pending.facts, Shows image fact
  | _ => True

instance (symbols : String → List MemoryMap → Except AccessError Int) (s : State) :
    ∀ event, Decidable (Unchanged symbols s event)
  | .look actor => inferInstanceAs (Decidable
      (∀ pending ∈ s.pending actor, ∀ source ∈ pending.asks symbols,
        source = .maps ∧ s.MayPerform actor ∨
          ∀ image ∈ s.image, ∀ fact ∈ s.caches.find s.processId source, Shows image fact))
  | .execute image => inferInstanceAs (Decidable
      (∀ pending ∈ s.pending .main, ∀ fact ∈ pending.facts, Shows image fact))
  | .start .. | .kill | .cont | .exit | .wait | .invalidateProcessCache | .contAgain
  | .setStopped | .breakpoint .. | .access .. | .remember _ | .perform _ | .finish _ =>
      .isTrue trivial

/-- What holds between two steps -/
structure Fresh (symbols : String → List MemoryMap → Except AccessError Int) (s : State) :
    Prop where
  accesses : ∀ access ∈ s.accesses, access.Current symbols
  pending : ∀ actor, ∀ pending ∈ s.pending actor, ∀ image ∈ s.image,
    ∀ fact ∈ pending.facts, Shows image fact
  /-- The maps remembered are those of the process, once they have been cleared after a stop. -/
  maps : s.phase = .idle ∨ s.phase = .handling → ∀ image ∈ s.image,
    ∀ maps ∈ s.caches.maps s.processId, maps = image.maps
  polling : (s.pending .polling).isSome → s.phase = .handling

variable {symbols : String → List MemoryMap → Except AccessError Int} {s next : State}
  {actor : Actor}

theorem Fresh.initial : Fresh symbols .initial where
  accesses := by simp [State.initial]
  pending := by simp [State.initial]
  maps := by simp [State.initial]
  polling := by simp [State.initial]

/-- Nothing is on its way in the polling thread while the statuses are not handled. -/
theorem Fresh.quiet (fresh : Fresh symbols s) (phase : s.phase ≠ .handling) :
    s.pending .polling = none := by
  cases pending : s.pending .polling with
  | none => rfl
  | some _ => exact absurd (fresh.polling (by rw [pending]; rfl)) phase

/-! ### What a step keeps -/

/-- A step that leaves the accesses alone. -/
theorem Fresh.move (fresh : Fresh symbols s) (accesses : next.accesses = s.accesses)
    (pending : next.pending = s.pending)
    (image : ∀ image ∈ next.image, image ∈ s.image ∨
      ∀ actor, ∀ pending ∈ s.pending actor, ∀ fact ∈ pending.facts, Shows image fact)
    (maps : next.phase = .idle ∨ next.phase = .handling → ∀ image ∈ next.image,
      ∀ maps ∈ next.caches.maps next.processId, maps = image.maps)
    (polling : (s.pending .polling).isSome → next.phase = .handling) : Fresh symbols next where
  accesses := accesses ▸ fresh.accesses
  pending := by
    rw [pending]
    intro actor onItsWay member image' shown
    rcases image image' shown with same | known
    · exact fresh.pending actor onItsWay member image' same
    · exact known actor onItsWay member
  maps := maps
  polling := pending ▸ polling

/-- While the process executes nothing is asked of the maps remembered. -/
theorem Fresh.leave (fresh : Fresh symbols s) (accesses : next.accesses = s.accesses)
    (pending : next.pending = s.pending)
    (image : ∀ image ∈ next.image, image ∈ s.image ∨
      ∀ actor, ∀ pending ∈ s.pending actor, ∀ fact ∈ pending.facts, Shows image fact)
    (phase : next.phase = .executing ∨ next.phase = .reported)
    (quiet : s.pending .polling = none) : Fresh symbols next := by
  refine fresh.move accesses pending image ?_ ?_
  · intro stopped
    rcases phase with phase | phase <;> rw [phase] at stopped <;> simp at stopped
  · intro some_
    rw [quiet] at some_
    cases some_

theorem Fresh.setPending (fresh : Fresh symbols s) {pending : Option Pending}
    (known : ∀ p ∈ pending, ∀ image ∈ s.image, ∀ fact ∈ p.facts, Shows image fact)
    (may : actor = .polling → pending.isSome → s.phase = .handling) :
    Fresh symbols (s.setPending actor pending) where
  accesses := fresh.accesses
  pending := by
    intro other p member
    by_cases same : other = actor
    · subst same
      exact known p (by simpa [State.setPending] using member)
    · exact fresh.pending other p (by simpa [State.setPending, same] using member)
  maps := fresh.maps
  polling := by
    intro some_
    by_cases same : Actor.polling = actor
    · subst same
      exact may rfl (by simpa [State.setPending] using some_)
    · exact fresh.polling (by simpa [State.setPending, same] using some_)

/-- Between a stop and the next resumption the maps remembered are the maps of the process. -/
theorem Fresh.find_maps (fresh : Fresh symbols s) (stopped : s.phase = .idle ∨ s.phase = .handling)
    {image : Image} (alive : image ∈ s.image) {fact : Fact}
    (found : fact ∈ s.caches.find s.processId .maps) : Shows image fact := by
  obtain ⟨maps, remembered, rfl⟩ := Option.map_eq_some_iff.mp found
  exact (fresh.maps stopped image alive maps remembered).symm

theorem MayPerform.stopped (may : s.MayPerform actor) : s.phase = .idle ∨ s.phase = .handling := by
  cases actor with
  | main => exact .inl may
  | polling => exact .inr may

theorem Pending.facts_answer (pending : Pending) (fact : Fact) :
    (pending.answer fact).facts = pending.used ++ [fact] :=
  List.append_nil _

/-- A lookup adds what is remembered or read to what is known, and both are so. -/
theorem Fresh.look (fresh : Fresh symbols s) (unchanged : Unchanged symbols s (.look actor))
    (looked : look symbols s actor = some next) : Fresh symbols next := by
  unfold ResolutionCache.look at looked
  obtain ⟨pending, onItsWay, looked⟩ := Option.bind_eq_some_iff.mp looked
  obtain ⟨source, asks, looked⟩ := Option.bind_eq_some_iff.mp looked
  have may : actor = .polling → s.phase = .handling := by
    rintro rfl
    exact fresh.polling (by rw [onItsWay]; rfl)
  have known := fresh.pending actor pending onItsWay
  by_cases reading : pending.read.isSome
  · rw [if_pos reading] at looked
    cases looked
  rw [if_neg reading] at looked
  cases found : s.caches.find s.processId source with
  | some fact =>
      rw [found] at looked
      cases looked
      refine fresh.setPending ?_ fun polling _ => may polling
      rintro _ ⟨⟩ image alive old member
      rw [Pending.facts_answer] at member
      rcases List.mem_append.mp member with before | last
      · exact known image alive old (List.mem_append_left _ before)
      · obtain rfl := List.mem_singleton.mp last
        rcases unchanged pending onItsWay source asks with ⟨rfl, stopped⟩ | remembered
        · exact fresh.find_maps (MayPerform.stopped stopped) alive found
        · exact remembered image alive old found
  | none =>
      rw [found] at looked
      obtain ⟨image, alive, looked⟩ := Option.bind_eq_some_iff.mp looked
      cases looked
      refine fresh.setPending ?_ fun polling _ => may polling
      rintro _ ⟨⟩ image' alive' fact member
      cases alive.symm.trans alive'
      rcases List.mem_append.mp member with before | last
      · exact known image alive fact (List.mem_append_left _ before)
      · obtain rfl := List.mem_singleton.mp last
        rfl

/-- What was read is remembered as the process still shows it. -/
theorem Fresh.remember (fresh : Fresh symbols s) (remembered : remember s actor = some next) :
    Fresh symbols next := by
  unfold ResolutionCache.remember at remembered
  obtain ⟨pending, onItsWay, remembered⟩ := Option.bind_eq_some_iff.mp remembered
  obtain ⟨fact, read, remembered⟩ := Option.bind_eq_some_iff.mp remembered
  cases remembered
  have facts : (pending.answer fact).facts = pending.facts := by
    rw [Pending.facts_answer, Pending.facts, read, Option.toList_some]
  have known : ∀ image ∈ s.image, ∀ fact ∈ pending.facts, Shows image fact :=
    fresh.pending actor pending onItsWay
  have answered : Fresh symbols (s.setPending actor (pending.answer fact)) := by
    refine fresh.setPending ?_ ?_
    · rintro _ ⟨⟩
      rw [facts]
      exact known
    · rintro rfl _
      exact fresh.polling (by rw [onItsWay]; rfl)
  refine { answered with maps := ?_ }
  intro stopped image alive maps found
  have shown : Shows image fact :=
    known image alive fact (List.mem_append_right _ (by rw [read]; exact .head _))
  obtain ⟨source, content⟩ := fact
  cases source with
  | maps =>
      have updated := (Function.update_self s.processId (some content) s.caches.maps).symm
      cases updated.trans found
      exact shown.symm
  | fullPath => exact fresh.maps stopped image alive maps found
  | name => exact fresh.maps stopped image alive maps found

/-- Answers that the process still gives lead to the addresses that it resolves to. -/
theorem Pending.resolved_process {pending : Pending} {image : Image} {addresses : List Int}
    (known : ∀ fact ∈ pending.used, Shows image fact)
    (resolved : pending.resolved symbols = some (.ok addresses)) :
    (image.process symbols).resolve pending.target = .ok addresses := by
  obtain ⟨program, followed, returned⟩ := Option.bind_eq_some_iff.mp resolved
  calc (image.process symbols).resolve pending.target
      = AskingT.answered image.look (Resolving.resolve symbols pending.target) :=
        (answered_resolve symbols image pending.target).symm
    _ = program.answered image.look := (Asking.answered_of_follow known followed).symm
    _ = .ok addresses := Asking.answered_of_result returned

theorem Fresh.perform (fresh : Fresh symbols s) (performed : perform symbols s actor = some next) :
    Fresh symbols next := by
  unfold ResolutionCache.perform at performed
  obtain ⟨pending, onItsWay, performed⟩ := Option.bind_eq_some_iff.mp performed
  obtain ⟨image, alive, performed⟩ := Option.bind_eq_some_iff.mp performed
  have known : ∀ fact ∈ pending.used, Shows image fact := fun fact member =>
    fresh.pending actor pending onItsWay image alive fact (List.mem_append_left _ member)
  rcases resolved : pending.resolved symbols with _ | _ | addresses
  · rw [resolved] at performed
    cases performed
  · rw [resolved] at performed
    cases performed
  · rw [resolved] at performed
    obtain ⟨_, performed⟩ := Option.ite_none_right_eq_some.mp performed
    cases performed
    refine { fresh with accesses := ?_ }
    intro access member
    rcases List.mem_append.mp member with before | last
    · exact fresh.accesses access before
    · obtain rfl := List.mem_singleton.mp last
      exact ⟨known, Pending.resolved_process known resolved⟩

theorem Caches.maps_invalidate (caches : Caches) (processId : Int) :
    caches.invalidate.maps processId = none := rfl

/-- Each step keeps what is remembered and used fresh, as long as nothing used changes. -/
theorem Fresh.step {event : Event} (fresh : Fresh symbols s) (unchanged : Unchanged symbols s event)
    (stepped : step symbols s event = some next) : Fresh symbols next := by
  cases event with
  | look actor => exact fresh.look unchanged stepped
  | remember actor => exact fresh.remember stepped
  | perform actor => exact fresh.perform stepped
  | finish actor =>
      cases stepped
      exact fresh.setPending (fun _ none_ => by cases none_) fun _ some_ => by cases some_
  | exit =>
      cases stepped
      exact fresh.move rfl rfl (fun _ alive => by cases alive) (fun _ _ alive => by cases alive)
        fresh.polling
  | start processId image =>
      obtain ⟨⟨⟨idle, _, main⟩, _⟩, stepped⟩ := Option.ite_none_right_eq_some.mp stepped
      cases stepped
      have quiet := fresh.quiet (by rw [idle]; decide)
      refine fresh.leave rfl rfl (fun _ _ => .inr fun actor p member => ?_) (.inl rfl) quiet
      cases actor with
      | main =>
          rw [Option.isNone_iff_eq_none.mp main] at member
          cases member
      | polling =>
          rw [quiet] at member
          cases member
  | kill =>
      obtain ⟨_, stepped⟩ := Option.ite_none_right_eq_some.mp stepped
      cases stepped
      exact fresh.move rfl rfl (fun _ alive => by cases alive) (fun _ _ alive => by cases alive)
        fresh.polling
  | cont =>
      obtain ⟨⟨⟨idle, _⟩, _⟩, stepped⟩ := Option.ite_none_right_eq_some.mp stepped
      cases stepped
      exact fresh.leave rfl rfl (fun _ => .inl) (.inl rfl) (fresh.quiet (by rw [idle]; decide))
  | execute image =>
      obtain ⟨⟨executing, _⟩, stepped⟩ := Option.ite_none_right_eq_some.mp stepped
      cases stepped
      have quiet := fresh.quiet (by rw [executing]; decide)
      refine fresh.leave rfl rfl ?_ (.inl executing) quiet
      rintro _ ⟨⟩
      right
      intro actor p member
      cases actor with
      | main => exact unchanged p member
      | polling =>
          rw [quiet] at member
          cases member
  | wait =>
      obtain ⟨executing, stepped⟩ := Option.ite_none_right_eq_some.mp stepped
      cases stepped
      exact fresh.leave rfl rfl (fun _ => .inl) (.inr rfl) (fresh.quiet (by rw [executing]; decide))
  | invalidateProcessCache =>
      obtain ⟨_, stepped⟩ := Option.ite_none_right_eq_some.mp stepped
      cases stepped
      exact fresh.move rfl rfl (fun _ => .inl) (fun _ _ _ _ found => by cases found) fun _ => rfl
  | contAgain =>
      obtain ⟨⟨_, quiet⟩, stepped⟩ := Option.ite_none_right_eq_some.mp stepped
      cases stepped
      exact fresh.leave rfl rfl (fun _ => .inl) (.inl rfl) (Option.isNone_iff_eq_none.mp quiet)
  | setStopped =>
      obtain ⟨⟨handling, quiet⟩, stepped⟩ := Option.ite_none_right_eq_some.mp stepped
      cases stepped
      refine fresh.move rfl rfl (fun _ => .inl) ?_ ?_
      · intro _ image alive maps found
        cases starting : s.starting with
        | true => simp [starting, Caches.maps_invalidate] at found
        | false =>
            rw [starting] at found
            exact fresh.maps (.inr handling) image alive maps found
      · intro some_
        rw [Option.isNone_iff_eq_none.mp quiet] at some_
        cases some_
  | breakpoint position file =>
      obtain ⟨_, stepped⟩ := Option.ite_none_right_eq_some.mp stepped
      cases stepped
      refine fresh.setPending ?_ fun polling => by cases polling
      rintro _ ⟨⟩ _ _ fact ⟨⟩
  | access actor target =>
      obtain ⟨⟨may, _⟩, stepped⟩ := Option.ite_none_right_eq_some.mp stepped
      cases stepped
      refine fresh.setPending ?_ ?_
      · rintro _ ⟨⟩ _ _ fact ⟨⟩
      · rintro rfl _
        exact may

/-- In a run whose steps change nothing that is remembered or used, every access is made with
the maps, the path and the name of the process as it is at the access. -/
theorem accesses_current {events : List Event} {final : State}
    (unchanged : (machine symbols).Meets (Unchanged symbols) .initial events)
    (reached : (machine symbols).run .initial events = some final) :
    ∀ access ∈ final.accesses, access.Current symbols :=
  (Machine.run_invariant (motive := Fresh symbols) (fun _ _ _ fresh here stepped =>
    fresh.step here stepped) Fresh.initial unchanged reached).accesses

/-! ### A path remembered of another process -/

/-- A map of one page -/
def pageAt (n : Fin 16) (backingFile : String) : MemoryMap where
  start := n * 0x1000
  end_ := n * 0x1000 + 0x1000
  backingFile := backingFile
  end_le := by omega

/-- A process that executes the dynamic loader itself -/
def loader : Image where
  maps := [pageAt 1 "/ld.so"]
  fullPath := "/ld.so"
  name := "ld.so"

/-- A process that the loader is mapped into -/
def listing : Image where
  maps := [pageAt 4 "/bin/ls", pageAt 8 "/ld.so"]
  fullPath := "/bin/ls"
  name := "ls"

def attaching (processId : Int) (image : Image) : List Event :=
  [.start processId image, .wait, .invalidateProcessCache, .setStopped]

/-- `d.memory[0x10, 1, "binary"]`, where the path is already remembered or not -/
def reading (remembering : List Event) : List Event :=
  [.access .main (.positions [.int 0x10] "binary" true), .look .main, .remember .main,
    .look .main] ++ remembering ++ [.perform .main, .finish .main]

def noSymbols (_ : String) (_ : List MemoryMap) : Except AccessError Int :=
  .error (.valueError "Symbol not found.")

/-- The first process is read from where its own executable is mapped. -/
theorem accesses_current_loader : ∃ final,
    (machine noSymbols).run .initial (attaching 1 loader ++ reading [.remember .main]) =
        some final ∧
      final.accesses.map (·.addresses) = [[0x1010]] ∧
      ∀ access ∈ final.accesses, access.Current noSymbols := by
  have returns : ∃ final,
      (machine noSymbols).run .initial (attaching 1 loader ++ reading [.remember .main]) =
          some final ∧
        final.accesses.map (·.addresses) = [[0x1010]] :=
    Machine.exists_of_run (by decide +kernel)
  obtain ⟨final, reached, addresses⟩ := returns
  exact ⟨final, reached, addresses, accesses_current (by decide +kernel) reached⟩

/-- The next process is read from where the executable of the first is mapped into it. -/
theorem stale_path_used : ∃ final,
    (machine noSymbols).run .initial (attaching 1 loader ++ reading [.remember .main] ++
        [.kill] ++ attaching 2 listing ++ reading []) = some final ∧
      final.accesses.map (·.addresses) = [[0x1010], [0x8010]] ∧
      ∃ access ∈ final.accesses, ¬ access.Current noSymbols := by
  have returns : ∃ final,
      (machine noSymbols).run .initial (attaching 1 loader ++ reading [.remember .main] ++
          [.kill] ++ attaching 2 listing ++ reading []) = some final ∧
        final.accesses.map (·.addresses) = [[0x1010], [0x8010]] ∧
        ∃ access ∈ final.accesses, ∃ fact ∈ access.used, ¬ Shows access.image fact :=
    Machine.exists_of_run (by decide +kernel)
  obtain ⟨final, reached, addresses, access, member, fact, used, changed⟩ := returns
  exact ⟨final, reached, addresses, access, member, fun current => changed (current.1 fact used)⟩

end Libdebug.InternalDebugger.ResolutionCache
