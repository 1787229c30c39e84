import Libdebug.Foundation.WeakDict
import Libdebug.Foundation.Runs
import Libdebug.Ptrace.State

/-!
`provide_internal_debugger` and `link_to_internal_debugger`: which debugger an object belongs
to is kept in a weak dictionary of which the object itself is the key.

Breakpoints, syscall handlers and signal catchers are dataclasses, equal where all their
fields are, and hashed by one number. So objects of two debuggers can be one key, and an
object that changes may no longer be the key it was.
-/

namespace Libdebug.InternalDebugger

open Libdebug.Foundation Libdebug.Ptrace

abbrev DebuggerId := Nat

inductive Reference where
  | breakpoint (bp : Breakpoint)
  | syscallHandler (handler : SyscallHandler)
  | signalCatcher (catcher : SignalCatcher)
  deriving DecidableEq

/-- `hash` of an integer that is not negative: the remainder by `2 ^ 61 - 1` -/
def pyHash (n : Nat) : Nat := n % 2305843009213693951

/-- `__hash__` -/
def Reference.hash : Reference → Nat
  | .breakpoint bp => pyHash bp.address
  | .syscallHandler handler => pyHash handler.syscallNumber
  | .signalCatcher catcher => pyHash catcher.signalNumber

def Reference.sameClass : Reference → Reference → Bool
  | .breakpoint _, .breakpoint _ => true
  | .syscallHandler _, .syscallHandler _ => true
  | .signalCatcher _, .signalCatcher _ => true
  | _, _ => false

structure InternalDebuggerHolder where
  internalDebuggers : WeakDict DebuggerId
  globalInternalDebugger : Option DebuggerId

/-- The live objects and the holder. The field `linked` is a history that no function reads:
the debugger each object was linked to. -/
structure Objects where
  live : Dict Ref Reference
  holder : InternalDebuggerHolder
  linked : Ref → DebuggerId

def Objects.initial : Objects := ⟨.empty, ⟨[], none⟩, fun _ => 0⟩

section Functions

variable (probe : Probing DebuggerId)

/-- `internal_debuggers[reference] = internal_debugger` -/
def Objects.enter (s : Objects) (ref : Ref) (reference : Reference) (debugger : DebuggerId) :
    Objects :=
  { s with holder := { s.holder with
      internalDebuggers :=
        s.holder.internalDebuggers.set Reference.hash probe s.live.get? ref reference debugger } }

def linkToInternalDebugger (s : Objects) (ref : Ref) (reference : Reference)
    (debugger : DebuggerId) : Objects :=
  { s.enter probe ref reference debugger with linked := Function.update s.linked ref debugger }

def provideInternalDebugger (s : Objects) (ref : Ref) (reference : Reference) :
    Except PyError (DebuggerId × Objects) :=
  match s.holder.internalDebuggers.get? Reference.hash probe s.live.get? reference with
  | some debugger => .ok (debugger, s)
  | none =>
      match s.holder.globalInternalDebugger with
      | none => .error (.runtimeError "No internal debugger available")
      | some debugger => .ok (debugger, s.enter probe ref reference debugger)

end Functions

/-! ### Creations, updates and collections -/

inductive ObjectEvent where
  /-- an object is created, and linked to a debugger -/
  | create (ref : Ref) (reference : Reference) (debugger : DebuggerId)
  /-- fields of an object are assigned -/
  | update (ref : Ref) (reference : Reference)
  | collect (ref : Ref)
  deriving DecidableEq

/-- The machine of the objects, and of the dictionary that they are the keys of. -/
def registry (probe : Probing DebuggerId) : Machine Objects ObjectEvent where
  step s
    | .create ref reference debugger =>
        if ref ∈ s.live.keys then none
        else some (linkToInternalDebugger probe { s with live := s.live.set ref reference }
          ref reference debugger)
    | .update ref reference =>
        match s.live.get? ref with
        | none => none
        | some old =>
            if old.sameClass reference then some { s with live := s.live.set ref reference }
            else none
    | .collect ref =>
        if ref ∈ s.live.keys then
          some { s with
            live := s.live.erase ref
            holder := { s.holder with
              internalDebuggers := s.holder.internalDebuggers.collect ref } }
        else none

/-- Every live object is provided with the debugger it was linked to. -/
def Provided (probe : Probing DebuggerId) (s : Objects) : Prop :=
  ∀ ref reference, s.live.get? ref = some reference →
    provideInternalDebugger probe s ref reference = .ok (s.linked ref, s)

namespace Objects

/-- Another object is found by the entry of this one, and by no other. -/
def ReliesOn (s : Objects) (other ref : Ref) : Prop :=
  other ≠ ref ∧ ∃ reference, s.live.get? other = some reference ∧
    ∀ e ∈ s.holder.internalDebuggers, e.FoundBy Reference.hash s.live.get? reference → e.key = ref

/-- An object is created where it equals no object of another debugger. An update keeps the
number by which an object is hashed, or makes it equal to an object that is found so; and
makes it equal to no object of another debugger. And no other object relies on the entry of
the one that is updated or collected. -/
def Permits (s : Objects) : ObjectEvent → Prop
  | .create _ reference debugger =>
      ∀ other, s.live.get? other = some reference → s.linked other = debugger
  | .update ref reference =>
      s.live.get? ref = some reference ∨
        (¬ ∃ other, s.ReliesOn other ref) ∧
        (∀ other, other ≠ ref → s.live.get? other = some reference →
          s.linked other = s.linked ref) ∧
        ∃ e ∈ s.holder.internalDebuggers, e.hash = reference.hash ∧
          (e.key = ref ∨ s.live.get? e.key = some reference)
  | .collect ref => ¬ ∃ other, s.ReliesOn other ref

/-! A live object is an entry of a dictionary, so that conditions on all of them compute. -/

theorem exists_live {s : Objects} {p : Ref → Reference → Prop} :
    (∃ ref reference, s.live.get? ref = some reference ∧ p ref reference) ↔
      ∃ entry ∈ s.live.entries, p entry.1 entry.2 := by
  simp [Dict.get?_eq_some]

instance (s : Objects) (ref : Ref) : Decidable (∃ other, s.ReliesOn other ref) :=
  decidable_of_iff (∃ entry ∈ s.live.entries, entry.1 ≠ ref ∧
      ∀ e ∈ s.holder.internalDebuggers, e.FoundBy Reference.hash s.live.get? entry.2 →
        e.key = ref) (by
    rw [← exists_live (p := fun other reference => other ≠ ref ∧
      ∀ e ∈ s.holder.internalDebuggers, e.FoundBy Reference.hash s.live.get? reference →
        e.key = ref)]
    simp only [ReliesOn, ← exists_and_left, and_left_comm])

instance (s : Objects) (p : Ref → Prop) [DecidablePred p] (reference : Reference) :
    Decidable (∀ other, s.live.get? other = some reference → p other) :=
  decidable_of_iff (∀ entry ∈ s.live.entries, entry.2 = reference → p entry.1)
    (by
      constructor
      · intro all other live
        exact all (other, reference) (Dict.get?_eq_some.mp live) rfl
      · rintro all ⟨other, r⟩ member rfl
        exact all other (Dict.get?_eq_some.mpr member))

instance (s : Objects) : ∀ event, Decidable (s.Permits event)
  | .create _ reference debugger =>
      inferInstanceAs (Decidable (∀ other, s.live.get? other = some reference → _))
  | .update ref reference =>
      have : Decidable (∀ other, other ≠ ref → s.live.get? other = some reference →
          s.linked other = s.linked ref) :=
        decidable_of_iff (∀ other, s.live.get? other = some reference →
          (other ≠ ref → s.linked other = s.linked ref)) (by simp only [imp.swap])
      inferInstanceAs (Decidable (_ ∨ _ ∧ _ ∧ _))
  | .collect _ => inferInstanceAs (Decidable (¬ _))

/-- The invariant of runs in which every live object is provided with its debugger. -/
structure Sound (s : Objects) : Prop where
  noGlobal : s.holder.globalInternalDebugger = none
  keysLive : ∀ e ∈ s.holder.internalDebuggers, ∃ reference, s.live.get? e.key = some reference
  values : ∀ e ∈ s.holder.internalDebuggers, e.value = s.linked e.key
  found : ∀ ref reference, s.live.get? ref = some reference →
    ∃ e ∈ s.holder.internalDebuggers, e.FoundBy Reference.hash s.live.get? reference
  apart : ∀ ref other reference, s.live.get? ref = some reference →
    s.live.get? other = some reference → s.linked ref = s.linked other

variable {probe : Probing DebuggerId} {s t : Objects} {ref : Ref} {reference : Reference}
  {debugger : DebuggerId}

theorem sound_initial : Sound initial where
  noGlobal := rfl
  keysLive _ member := by cases member
  values _ member := by cases member
  found _ _ live := by cases live
  apart _ _ _ live := by cases live

theorem Sound.provided (sound : s.Sound) : Provided probe s := by
  intro ref reference live
  obtain ⟨e, member, foundBy⟩ := sound.found ref reference live
  obtain ⟨debugger, there⟩ := WeakDict.get?_of_exists probe member foundBy
  obtain ⟨other, otherMember, ⟨-, equal⟩, rfl⟩ := WeakDict.exists_of_get? there
  have right : other.value = s.linked ref :=
    (sound.values other otherMember).trans (sound.apart _ _ reference equal live)
  rw [provideInternalDebugger, there, right]

theorem found_of_provided (provided : Provided probe s)
    (noGlobal : s.holder.globalInternalDebugger = none) (live : s.live.get? ref = some reference) :
    ∃ e ∈ s.holder.internalDebuggers, e.FoundBy Reference.hash s.live.get? reference := by
  have answer := provided ref reference live
  rw [provideInternalDebugger, noGlobal] at answer
  rcases there : s.holder.internalDebuggers.get? Reference.hash probe s.live.get? reference with
    _ | debugger
  · rw [there] at answer
    cases answer
  · obtain ⟨e, member, foundBy, -⟩ := WeakDict.exists_of_get? there
    exact ⟨e, member, foundBy⟩

/-- Equal objects are provided with one debugger. -/
theorem apart_of_provided (provided : Provided probe s)
    (noGlobal : s.holder.globalInternalDebugger = none) {other : Ref}
    (live : s.live.get? ref = some reference) (otherLive : s.live.get? other = some reference) :
    s.linked ref = s.linked other := by
  have answer := provided ref reference live
  have otherAnswer := provided other reference otherLive
  rw [provideInternalDebugger, noGlobal] at answer otherAnswer
  rcases there : s.holder.internalDebuggers.get? Reference.hash probe s.live.get? reference with
    _ | debugger
  · rw [there] at answer
    cases answer
  · rw [there] at answer otherAnswer
    simp only [Except.ok.injEq, Prod.mk.injEq, and_true] at answer otherAnswer
    exact answer.symm.trans otherAnswer

theorem live_set {live : Dict Ref Reference} {other : Ref} {r : Reference} :
    (live.set ref reference).get? other = some r ↔
      other = ref ∧ r = reference ∨ other ≠ ref ∧ live.get? other = some r := by
  rw [Dict.get?_set]
  by_cases here : other = ref
  · simp [here, eq_comm]
  · simp [here]

theorem live_erase {live : Dict Ref Reference} {other : Ref} {r : Reference} :
    (live.erase ref).get? other = some r ↔ other ≠ ref ∧ live.get? other = some r := by
  rw [Dict.get?_erase]
  by_cases here : other = ref <;> simp [here]

theorem Sound.create (sound : s.Sound) (fresh : ref ∉ s.live.keys)
    (permits : s.Permits (.create ref reference debugger)) :
    (linkToInternalDebugger probe { s with live := s.live.set ref reference }
      ref reference debugger).Sound := by
  have unused {other : Ref} {r : Reference} (live : s.live.get? other = some r) : other ≠ ref := by
    rintro rfl
    exact fresh (Dict.mem_keys.mpr ⟨r, live⟩)
  have kept {other : Ref} {r : Reference} (live : s.live.get? other = some r) :
      (s.live.set ref reference).get? other = some r := live_set.mpr (.inr ⟨unused live, live⟩)
  have linkedSelf : Function.update s.linked ref debugger ref = debugger :=
    Function.update_self ref debugger s.linked
  have linked {other : Ref} {r : Reference} (live : s.live.get? other = some r) :
      Function.update s.linked ref debugger other = s.linked other :=
    Function.update_of_ne (unused live) _ _
  constructor
  · exact sound.noGlobal
  · intro e member
    rcases WeakDict.mem_set member with old | ⟨-, ⟨old, oldMember, -, sameKey, -⟩ | ⟨-, here⟩⟩
    · obtain ⟨r, live⟩ := sound.keysLive e old
      exact ⟨r, kept live⟩
    · obtain ⟨r, live⟩ := sound.keysLive old oldMember
      exact ⟨r, sameKey ▸ kept live⟩
    · exact ⟨reference, live_set.mpr (.inl ⟨here, rfl⟩)⟩
  · intro e member
    rcases WeakDict.mem_set member with
      old | ⟨value, ⟨old, oldMember, -, sameKey, -, equal⟩ | ⟨-, here⟩⟩
    · obtain ⟨r, live⟩ := sound.keysLive e old
      exact (sound.values e old).trans (linked live).symm
    · obtain ⟨r, live⟩ := sound.keysLive old oldMember
      rcases live_set.mp equal with ⟨here, -⟩ | ⟨-, same⟩
      · exact absurd here (unused live)
      · have belongs : s.linked old.key = debugger := permits old.key same
        rw [value, ← sameKey]
        exact (belongs.symm.trans (linked live).symm)
    · rw [value, here]
      exact linkedSelf.symm
  · intro other r live
    rcases live_set.mp live with ⟨rfl, rfl⟩ | ⟨-, before⟩
    · obtain ⟨e, member, hashed, key | equal⟩ := WeakDict.exists_set Reference.hash probe
        s.holder.internalDebuggers (s.live.set other r).get? other r debugger
      · exact ⟨e, member, hashed, by rw [key]; exact live⟩
      · exact ⟨e, member, hashed, equal⟩
    · obtain ⟨e, member, hashed, equal⟩ := sound.found other r before
      obtain ⟨e', member', sameHash, sameKey⟩ := WeakDict.keys_set Reference.hash probe
        (s.live.set ref reference).get? ref reference debugger member
      exact ⟨e', member', sameHash.trans hashed, by rw [sameKey]; exact kept equal⟩
  · intro a b r aLive bLive
    rcases live_set.mp aLive with ⟨rfl, rfl⟩ | ⟨-, aBefore⟩
    · rcases live_set.mp bLive with ⟨rfl, -⟩ | ⟨-, bBefore⟩
      · rfl
      · exact linkedSelf.trans ((permits b bBefore).symm.trans (linked bBefore).symm)
    · rcases live_set.mp bLive with ⟨rfl, rfl⟩ | ⟨-, bBefore⟩
      · exact (linked aBefore).trans ((permits a aBefore).trans linkedSelf.symm)
      · exact (linked aBefore).trans
          ((sound.apart a b r aBefore bBefore).trans (linked bBefore).symm)

/-- An object on whose entry no other relies may go or change: the others are found. -/
theorem found_elsewhere (free : ¬ ∃ other, s.ReliesOn other ref) {other : Ref}
    (different : other ≠ ref) (live : s.live.get? other = some reference) :
    ∃ e ∈ s.holder.internalDebuggers, e.key ≠ ref ∧
      e.FoundBy Reference.hash s.live.get? reference := by
  by_contra none
  apply free
  refine ⟨other, different, reference, live, ?_⟩
  intro e member foundBy
  by_contra elsewhere
  exact none ⟨e, member, elsewhere, foundBy⟩

theorem Sound.update (sound : s.Sound) (permits : s.Permits (.update ref reference)) :
    Sound { s with live := s.live.set ref reference } := by
  rcases permits with same | ⟨free, alone, entry, entryMember, hashed, key⟩
  · -- nothing has changed
    have unchanged : (s.live.set ref reference).get? = s.live.get? := by
      funext other
      rw [Dict.get?_set]
      split
      · rename_i here
        rw [here, same]
      · rfl
    constructor
    · exact sound.noGlobal
    · simpa only [unchanged] using sound.keysLive
    · exact sound.values
    · simpa only [unchanged] using sound.found
    · simpa only [unchanged] using sound.apart
  · constructor
    · exact sound.noGlobal
    · intro e member
      obtain ⟨r, live⟩ := sound.keysLive e member
      by_cases here : e.key = ref
      · exact ⟨reference, live_set.mpr (.inl ⟨here, rfl⟩)⟩
      · exact ⟨r, live_set.mpr (.inr ⟨here, live⟩)⟩
    · exact sound.values
    · intro other r live
      rcases live_set.mp live with ⟨rfl, rfl⟩ | ⟨different, before⟩
      · refine ⟨entry, entryMember, hashed, live_set.mpr ?_⟩
        by_cases here : entry.key = other
        · exact .inl ⟨here, rfl⟩
        · exact .inr ⟨here, key.resolve_left here⟩
      · obtain ⟨e, member, elsewhere, sameHash, equal⟩ := found_elsewhere free different before
        exact ⟨e, member, sameHash, live_set.mpr (.inr ⟨elsewhere, equal⟩)⟩
    · intro a b r aLive bLive
      rcases live_set.mp aLive with ⟨rfl, rfl⟩ | ⟨aOther, aBefore⟩
      · rcases live_set.mp bLive with ⟨rfl, -⟩ | ⟨bOther, bBefore⟩
        · rfl
        · exact (alone b bOther bBefore).symm
      · rcases live_set.mp bLive with ⟨rfl, rfl⟩ | ⟨-, bBefore⟩
        · exact alone a aOther aBefore
        · exact sound.apart a b r aBefore bBefore

theorem Sound.collect (sound : s.Sound) (permits : s.Permits (.collect ref)) :
    Sound { s with
      live := s.live.erase ref
      holder := { s.holder with
        internalDebuggers := s.holder.internalDebuggers.collect ref } } := by
  constructor
  · exact sound.noGlobal
  · intro e member
    obtain ⟨before, elsewhere⟩ := WeakDict.mem_collect.mp member
    obtain ⟨r, live⟩ := sound.keysLive e before
    exact ⟨r, live_erase.mpr ⟨elsewhere, live⟩⟩
  · intro e member
    exact sound.values e (WeakDict.mem_collect.mp member).1
  · intro other r live
    obtain ⟨different, before⟩ := live_erase.mp live
    obtain ⟨e, member, elsewhere, sameHash, equal⟩ := found_elsewhere permits different before
    exact ⟨e, WeakDict.mem_collect.mpr ⟨member, elsewhere⟩, sameHash,
      live_erase.mpr ⟨elsewhere, equal⟩⟩
  · intro a b r aLive bLive
    exact sound.apart a b r (live_erase.mp aLive).2 (live_erase.mp bLive).2

/-! ### What follows from every object being provided with its debugger -/

theorem permits_create (fresh : ref ∉ s.live.keys) (sound : s.Sound)
    (provided : Provided probe (linkToInternalDebugger probe
      { s with live := s.live.set ref reference } ref reference debugger)) :
    s.Permits (.create ref reference debugger) := by
  intro other live
  have different : other ≠ ref := by
    rintro rfl
    exact fresh (Dict.mem_keys.mpr ⟨reference, live⟩)
  have same := apart_of_provided provided sound.noGlobal
    (live_set.mpr (.inr ⟨different, live⟩)) (live_set.mpr (.inl ⟨rfl, rfl⟩))
  have linkedSelf : Function.update s.linked ref debugger ref = debugger :=
    Function.update_self ref debugger s.linked
  have linked : Function.update s.linked ref debugger other = s.linked other :=
    Function.update_of_ne different _ _
  exact linked.symm.trans (same.trans linkedSelf)

theorem permits_update (sound : s.Sound)
    (provided : Provided probe { s with live := s.live.set ref reference }) :
    s.Permits (.update ref reference) := by
  by_cases same : s.live.get? ref = some reference
  · exact .inl same
  · refine .inr ⟨?_, ?_, ?_⟩
    · rintro ⟨other, different, r, live, only⟩
      obtain ⟨e, member, hashed, equal⟩ := found_of_provided provided sound.noGlobal
        (live_set.mpr (.inr ⟨different, live⟩))
      rcases live_set.mp equal with ⟨here, rfl⟩ | ⟨elsewhere, before⟩
      · -- what the other object relied on equalled it, and equals it still
        obtain ⟨old, oldMember, oldHash, oldEqual⟩ := sound.found other r live
        have key := only old oldMember ⟨oldHash, oldEqual⟩
        exact same (key ▸ oldEqual)
      · exact elsewhere (only e member ⟨hashed, before⟩)
    · intro other different live
      exact apart_of_provided provided sound.noGlobal
        (live_set.mpr (.inr ⟨different, live⟩)) (live_set.mpr (.inl ⟨rfl, rfl⟩))
    · obtain ⟨e, member, hashed, equal⟩ := found_of_provided provided sound.noGlobal
        (live_set.mpr (.inl ⟨rfl, rfl⟩))
      refine ⟨e, member, hashed, ?_⟩
      rcases live_set.mp equal with ⟨here, -⟩ | ⟨-, before⟩
      · exact .inl here
      · exact .inr before

theorem permits_collect (sound : s.Sound)
    (provided : Provided probe { s with
      live := s.live.erase ref
      holder := { s.holder with
        internalDebuggers := s.holder.internalDebuggers.collect ref } }) :
    s.Permits (.collect ref) := by
  rintro ⟨other, different, r, live, only⟩
  obtain ⟨e, member, hashed, equal⟩ := found_of_provided provided sound.noGlobal
    (live_erase.mpr ⟨different, live⟩)
  obtain ⟨before, elsewhere⟩ := WeakDict.mem_collect.mp member
  exact elsewhere (only e before ⟨hashed, (live_erase.mp equal).2⟩)

end Objects

/-! ### Runs -/

section Runs

variable {probe : Probing DebuggerId} {s t : Objects} {event : ObjectEvent}
  {events : List ObjectEvent}

theorem provided_step (sound : s.Sound) (stepped : (registry probe).step s event = some t) :
    (Provided probe t ↔ s.Permits event) ∧ (s.Permits event → t.Sound) := by
  cases event with
  | create ref reference debugger =>
      simp only [registry, Option.ite_none_left_eq_some, Option.some.injEq] at stepped
      obtain ⟨fresh, rfl⟩ := stepped
      exact ⟨⟨Objects.permits_create fresh sound, fun permits =>
        (sound.create fresh permits).provided⟩, sound.create fresh⟩
  | update ref reference =>
      simp only [registry] at stepped
      split at stepped
      · cases stepped
      · simp only [Option.ite_none_right_eq_some, Option.some.injEq] at stepped
        obtain ⟨-, rfl⟩ := stepped
        exact ⟨⟨Objects.permits_update sound, fun permits => (sound.update permits).provided⟩,
          sound.update⟩
  | collect ref =>
      simp only [registry, Option.ite_none_right_eq_some, Option.some.injEq] at stepped
      obtain ⟨-, rfl⟩ := stepped
      exact ⟨⟨Objects.permits_collect sound, fun permits => (sound.collect permits).provided⟩,
        sound.collect⟩

/-- Whatever objects are created, updated and collected, every live one is at every moment
provided with the debugger it was linked to if and only if every step is permitted: no
object equals one of another debugger, none changes the number it is hashed by, and none
whose entry another one relies on changes or goes. -/
theorem own_debugger_provided_iff (reached : (registry probe).run .initial events = some t) :
    (registry probe).Throughout (Provided probe) .initial events ↔
      (registry probe).Meets Objects.Permits .initial events := by
  have start : Provided probe .initial := Objects.sound_initial.provided
  apply Machine.throughout_iff (motive := Objects.Sound) _ _ Objects.sound_initial start reached
  · intro s event t sound stepped
    exact (provided_step sound stepped).1
  · intro s event t sound permits stepped
    exact (provided_step sound stepped).2 permits

/-- Breakpoints of two debuggers at one address, of which one is a hardware breakpoint; the
other is hit, and the first one is collected. -/
def apartEvents : List ObjectEvent :=
  [.create 0 (.breakpoint { address := 0x1000, hardware := true }) 0,
    .create 1 (.breakpoint { address := 0x1000 }) 1,
    .update 1 (.breakpoint { address := 0x1000, hitCount := 1 }),
    .collect 0]

theorem own_debugger_provided_apart :
    (registry (.inOrder _)).Throughout (Provided (.inOrder _)) .initial apartEvents := by
  obtain ⟨t, reached, -⟩ : ∃ t, (registry (.inOrder _)).run .initial apartEvents = some t ∧ True :=
    Machine.exists_of_run (by decide +kernel)
  exact (own_debugger_provided_iff reached).mpr (by decide +kernel)

/-- Breakpoints of two debuggers at one address: the first belongs to the second debugger. -/
theorem own_debugger_lost :
    ∃ t bp, (registry (.inOrder _)).run .initial
        [.create 0 (.breakpoint { address := 0x1000 }) 0,
          .create 1 (.breakpoint { address := 0x1000 }) 1] = some t ∧
      t.live.get? 0 = some bp ∧ t.linked 0 = 0 ∧
      (provideInternalDebugger (.inOrder _) t 0 bp).map Prod.fst = .ok 1 :=
  ⟨_, _, rfl, rfl, rfl, rfl⟩

end Runs

end Libdebug.InternalDebugger
