import Mathlib.Order.Defs.Unbundled
import Mathlib.Data.Finset.Insert

/-!
What programs with state and exceptions do to the state, whether they return or
raise. `Keeps R` says that the state a program ends in is related by the preorder `R`
to the one it starts in; it composes along `bind`. Its common instances are `Leaves f`,
that some view of the state is unchanged, `Maintains P`, that an invariant is, and
`Changes F`, that only the fields in `F` may differ.
-/

namespace Libdebug.Foundation

variable {ε σ α β : Type}

/-- The state a program ends in, whether it returns or raises. -/
def stateAfter (p : EStateM ε σ α) (s : σ) : σ :=
  match p.run s with
  | .ok _ t => t
  | .error _ t => t

section StateAfter

variable {s t : σ}

theorem stateAfter_of_ok {p : EStateM ε σ α} {a : α} (returned : p.run s = .ok a t) :
    stateAfter p s = t := by
  simp only [stateAfter, returned]

theorem stateAfter_of_error {p : EStateM ε σ α} {e : ε} (raised : p.run s = .error e t) :
    stateAfter p s = t := by
  simp only [stateAfter, raised]

@[simp] theorem stateAfter_pure (a : α) : stateAfter (pure a : EStateM ε σ α) s = s := rfl

@[simp] theorem stateAfter_modify (g : σ → σ) :
    stateAfter (modify g : EStateM ε σ PUnit) s = g s := rfl

@[simp] theorem stateAfter_get_bind (f : σ → EStateM ε σ β) :
    stateAfter (get >>= f) s = stateAfter (f s) s := rfl

@[simp] theorem stateAfter_modify_bind (g : σ → σ) (f : PUnit → EStateM ε σ β) :
    stateAfter ((modify g : EStateM ε σ PUnit) >>= f) s = stateAfter (f ⟨⟩) (g s) := rfl

theorem stateAfter_bind_ok {p : EStateM ε σ α} {f : α → EStateM ε σ β} {a : α}
    (returned : p.run s = .ok a t) : stateAfter (p >>= f) s = stateAfter (f a) t := by
  simp only [stateAfter, EStateM.run_bind, returned]

theorem stateAfter_bind_error {p : EStateM ε σ α} {f : α → EStateM ε σ β} {e : ε}
    (raised : p.run s = .error e t) : stateAfter (p >>= f) s = t := by
  simp only [stateAfter, EStateM.run_bind, raised]

/-- A sequence that returns has its first program return. -/
theorem ok_of_bind {p : EStateM ε σ α} {f : α → EStateM ε σ β} {b : β}
    (returned : (p >>= f).run s = .ok b t) :
    ∃ a r, p.run s = .ok a r ∧ (f a).run r = .ok b t := by
  rw [EStateM.run_bind] at returned
  rcases first : p.run s with ⟨a, r⟩ | ⟨e, r⟩
  · rw [first] at returned
    exact ⟨a, r, rfl, returned⟩
  · rw [first] at returned
    cases returned

/-- What holds where the first program raises, and after the second where it returns. -/
theorem stateAfter_bind {motive : σ → Prop} {p : EStateM ε σ α} {f : α → EStateM ε σ β}
    (raised : ∀ e t, p.run s = .error e t → motive t)
    (returned : ∀ a t, p.run s = .ok a t → motive (stateAfter (f a) t)) :
    motive (stateAfter (p >>= f) s) := by
  rcases ended : p.run s with ⟨a, t⟩ | ⟨e, t⟩
  · rw [stateAfter_bind_ok ended]
    exact returned a t ended
  · rw [stateAfter_bind_error ended]
    exact raised e t ended

end StateAfter

/-! ### What a program returns -/

/-- The condition holds of whatever the program returns, and of the state then. -/
def Returning (p : EStateM ε σ α) (Q : α → σ → Prop) (s : σ) : Prop :=
  ∀ a t, p.run s = .ok a t → Q a t

instance (p : EStateM ε σ α) (Q : α → σ → Prop) (s : σ) [∀ a t, Decidable (Q a t)] :
    Decidable (Returning p Q s) :=
  match ended : p.run s with
  | .ok a t => decidable_of_iff (Q a t) ⟨fun holds b u same => by
      rw [ended] at same
      cases same
      exact holds, fun holds => holds a t ended⟩
  | .error e t => .isTrue fun b u same => by
      rw [ended] at same
      cases same

/-- The program returns, and the condition holds of what it returns and of the state then. -/
def Returns (p : EStateM ε σ α) (Q : α → σ → Prop) (s : σ) : Prop :=
  ∃ a t, p.run s = .ok a t ∧ Q a t

instance (p : EStateM ε σ α) (Q : α → σ → Prop) (s : σ) [∀ a t, Decidable (Q a t)] :
    Decidable (Returns p Q s) :=
  match ended : p.run s with
  | .ok a t => decidable_of_iff (Q a t) ⟨fun holds => ⟨a, t, ended, holds⟩, fun returns => by
      obtain ⟨b, u, same, holds⟩ := returns
      rw [ended] at same
      cases same
      exact holds⟩
  | .error e t => .isFalse fun returns => by
      obtain ⟨b, u, same, -⟩ := returns
      rw [ended] at same
      cases same

/-- An invariant of a loop that returns may speak of what is left to do. -/
theorem forM_ok {f : β → EStateM ε σ PUnit} {P : List β → σ → Prop} {xs : List β} {s t : σ}
    (step : ∀ x rest s t, P (x :: rest) s → (f x).run s = .ok ⟨⟩ t → P rest t)
    (initial : P xs s) (returned : (xs.forM f).run s = .ok ⟨⟩ t) : P [] t := by
  induction xs generalizing s with
  | nil =>
      cases returned
      exact initial
  | cons x rest ih =>
      obtain ⟨_, r, here, later⟩ := ok_of_bind returned
      exact ih (step x rest s r initial here) later

/-- A loop returns if every turn of it returns and keeps an invariant. -/
theorem forM_returns {f : β → EStateM ε σ PUnit} {P : σ → Prop} {xs : List β} {s : σ}
    (step : ∀ x ∈ xs, ∀ s, P s → ∃ t, (f x).run s = .ok ⟨⟩ t ∧ P t) (initial : P s) :
    ∃ t, (xs.forM f).run s = .ok ⟨⟩ t ∧ P t := by
  induction xs generalizing s with
  | nil => exact ⟨s, rfl, initial⟩
  | cons x rest ih =>
      obtain ⟨here, later⟩ := List.forall_mem_cons.mp step
      obtain ⟨r, first, kept⟩ := here s initial
      obtain ⟨t, ended, holds⟩ := ih later kept
      refine ⟨t, ?_, holds⟩
      have unfolded : (x :: rest).forM f = (f x >>= fun _ => rest.forM f) := rfl
      rw [unfolded, EStateM.run_bind, first]
      exact ended

/-! ### Triples -/

/-- From a state of `P` a program returns as `Q` says, or raises as `E` says. -/
def Triple (P : σ → Prop) (p : EStateM ε σ α) (Q : α → σ → Prop) (E : ε → σ → Prop) : Prop :=
  ∀ s, P s → match p.run s with
    | .ok a t => Q a t
    | .error e t => E e t

namespace Triple

variable {P P' : σ → Prop} {Q Q' : α → σ → Prop} {E : ε → σ → Prop} {p : EStateM ε σ α} {s t : σ}

theorem of_ok {a : α} (triple : Triple P p Q E) (before : P s) (returned : p.run s = .ok a t) :
    Q a t := by
  have after := triple s before
  rwa [returned] at after

theorem of_error {e : ε} (triple : Triple P p Q E) (before : P s)
    (raised : p.run s = .error e t) : E e t := by
  have after := triple s before
  rwa [raised] at after

protected theorem pure {a : α} (holds : ∀ s, P s → Q a s) :
    Triple P (pure a : EStateM ε σ α) Q E := holds

protected theorem throw {e : ε} (holds : ∀ s, P s → E e s) :
    Triple P (throw e : EStateM ε σ α) Q E := holds

protected theorem modify {Q : PUnit → σ → Prop} {g : σ → σ} (holds : ∀ s, P s → Q ⟨⟩ (g s)) :
    Triple P (modify g : EStateM ε σ PUnit) Q E := holds

protected theorem bind {R : β → σ → Prop} {f : α → EStateM ε σ β} (first : Triple P p Q E)
    (second : ∀ a, Triple (Q a) (f a) R E) : Triple P (p >>= f) R E := by
  intro s before
  rw [EStateM.run_bind]
  rcases ended : p.run s with ⟨a, t⟩ | ⟨e, t⟩
  · exact second a t (first.of_ok before ended)
  · exact first.of_error before ended

/-- The continuation may use that it starts in the state that was read. -/
theorem get_bind {f : σ → EStateM ε σ α} (holds : ∀ s, Triple (fun t => P t ∧ t = s) (f s) Q E) :
    Triple P (get >>= f) Q E := fun s before => holds s s ⟨before, rfl⟩

theorem ite {c : Prop} [Decidable c] {q : EStateM ε σ α}
    (yes : c → Triple P p Q E) (no : ¬ c → Triple P q Q E) :
    Triple P (if c then p else q) Q E := by
  split
  · exact yes ‹c›
  · exact no ‹¬ c›

theorem mono (triple : Triple P p Q E) (before : ∀ s, P' s → P s)
    (after : ∀ a s, Q a s → Q' a s) : Triple P' p Q' E := by
  intro s holds
  have ended := triple s (before s holds)
  cases run : p.run s with
  | ok a t =>
      rw [run] at ended
      exact after a t ended
  | error e t =>
      rw [run] at ended
      exact ended

end Triple

/-! ### Preorders that programs follow -/

def Keeps (R : σ → σ → Prop) (p : EStateM ε σ α) : Prop := ∀ s, R s (stateAfter p s)

namespace Keeps

variable {R : σ → σ → Prop}

theorem of_ok {p : EStateM ε σ α} (kept : Keeps R p) {s t : σ} {a : α}
    (returned : p.run s = .ok a t) : R s t :=
  stateAfter_of_ok returned ▸ kept s

theorem of_error {p : EStateM ε σ α} (kept : Keeps R p) {s t : σ} {e : ε}
    (raised : p.run s = .error e t) : R s t :=
  stateAfter_of_error raised ▸ kept s

theorem modify {g : σ → σ} (kept : ∀ s, R s (g s)) :
    Keeps R (modify g : EStateM ε σ PUnit) := kept

/-- The continuation may use that it starts in the state that was read. -/
theorem get_bind {f : σ → EStateM ε σ β} (kept : ∀ s, R s (stateAfter (f s) s)) :
    Keeps R (get >>= f) := kept

theorem ite {c : Prop} [Decidable c] {p q : EStateM ε σ α} (yes : c → Keeps R p)
    (no : ¬ c → Keeps R q) : Keeps R (if c then p else q) := by
  split
  · exact yes ‹c›
  · exact no ‹¬ c›

variable [IsPreorder σ R]

protected theorem pure (a : α) : Keeps R (pure a : EStateM ε σ α) := fun s => refl_of R s

protected theorem throw (e : ε) : Keeps R (throw e : EStateM ε σ α) := fun s => refl_of R s

protected theorem get : Keeps R (get : EStateM ε σ σ) := fun s => refl_of R s

protected theorem bind {p : EStateM ε σ α} {f : α → EStateM ε σ β} (first : Keeps R p)
    (second : ∀ a, Keeps R (f a)) : Keeps R (p >>= f) := fun _ =>
  stateAfter_bind (fun _ _ raised => first.of_error raised)
    fun a t returned => trans_of R (first.of_ok returned) (second a t)

protected theorem forM {f : β → EStateM ε σ PUnit} {xs : List β}
    (kept : ∀ x ∈ xs, Keeps R (f x)) : Keeps R (xs.forM f) := by
  induction xs with
  | nil => exact Keeps.pure _
  | cons x rest ih =>
      obtain ⟨here, later⟩ := List.forall_mem_cons.mp kept
      exact here.bind fun _ => ih later

end Keeps

/-- Where a program raises, the state is related to the one it started in. -/
def Raises (R : σ → σ → Prop) (p : EStateM ε σ α) : Prop := ∀ s e t, p.run s = .error e t → R s t

namespace Raises

variable {R : σ → σ → Prop}

theorem of_keeps {p : EStateM ε σ α} (kept : Keeps R p) : Raises R p :=
  fun _ _ _ raised => kept.of_error raised

theorem modify (g : σ → σ) : Raises R (modify g : EStateM ε σ PUnit) :=
  fun _ _ _ raised => by cases raised

protected theorem ite {c : Prop} [Decidable c] {p q : EStateM ε σ α} (yes : c → Raises R p)
    (no : ¬ c → Raises R q) : Raises R (if c then p else q) := by
  split
  · exact yes ‹c›
  · exact no ‹¬ c›

protected theorem bind [IsPreorder σ R] {p : EStateM ε σ α} {f : α → EStateM ε σ β}
    (first : Keeps R p) (second : ∀ a, Raises R (f a)) : Raises R (p >>= f) := by
  intro s e t raised
  rw [EStateM.run_bind] at raised
  rcases ended : p.run s with ⟨a, r⟩ | ⟨e', r⟩
  · rw [ended] at raised
    exact trans_of R (first.of_ok ended) (second a r e t raised)
  · rw [ended] at raised
    cases raised
    exact first.of_error ended

end Raises

/-! ### Views that are left alone, and invariants -/

def Same (f : σ → β) (s t : σ) : Prop := f t = f s

instance (f : σ → β) : IsPreorder σ (Same f) where
  refl _ := rfl
  trans _ _ _ first second := second.trans first

abbrev Leaves (f : σ → β) (p : EStateM ε σ α) : Prop := Keeps (Same f) p

def Implies (P : σ → Prop) (s t : σ) : Prop := P s → P t

instance (P : σ → Prop) : IsPreorder σ (Implies P) where
  refl _ := id
  trans _ _ _ first second := second ∘ first

abbrev Maintains (P : σ → Prop) (p : EStateM ε σ α) : Prop := Keeps (Implies P) p

/-- What a view that is left alone determines is maintained. -/
theorem Leaves.maintains {f : σ → β} {p : EStateM ε σ α} (left : Leaves f p) (P : β → Prop) :
    Maintains (fun s => P (f s)) p := fun s holds => by
  have same : f (stateAfter p s) = f s := left s
  simpa only [same] using holds

/-! ### Footprints -/

section Changes

variable {ι : Type} {same : ι → σ → σ → Prop} {F G : Finset ι}

/-- The two states agree on every field outside the set. -/
def Changes (same : ι → σ → σ → Prop) (F : Finset ι) (s t : σ) : Prop := ∀ i, i ∉ F → same i s t

instance [∀ i, IsPreorder σ (same i)] : IsPreorder σ (Changes same F) where
  refl s i _ := refl_of (same i) s
  trans _ _ _ first second i outside := trans_of (same i) (first i outside) (second i outside)

theorem Changes.mono {s t : σ} (changes : Changes same F s t) (sub : F ⊆ G) :
    Changes same G s t := fun i outside => changes i fun member => outside (sub member)

theorem Keeps.mono {p : EStateM ε σ α} (kept : Keeps (Changes same F) p) (sub : F ⊆ G) :
    Keeps (Changes same G) p := fun s => (kept s).mono sub

end Changes

end Libdebug.Foundation
