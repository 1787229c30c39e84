import Libdebug.Foundation.Effects

/-!
Programs that ask their environment and go on with what it answers. The answers are given
beforehand, as a script, so that a statement about every script is one about every
environment. A program that finds no fitting answer is `unanswered`: that script is not one
of a whole run.

`Ends p post abort` speaks of the answers the program takes: `post` relates them to what
is returned, `abort` holds of them where the program raises.
-/

namespace Libdebug.Foundation

/-- Why a program does not return. -/
inductive Interruption (ε : Type) where
  | raised (error : ε)
  | unanswered
  deriving DecidableEq, Repr

/-- A program whose state is what is left of the script. -/
abbrev Script (ε A : Type) := EStateM (Interruption ε) (List A)

namespace Script

variable {ε A α β : Type}

/-- Take an answer: it is turned into a value or an error, or does not fit. -/
def ask (fits : A → Option (Except ε α)) : Script ε A α := do
  match ← get with
  | [] => throw .unanswered
  | answer :: rest =>
      match fits answer with
      | none => throw .unanswered
      | some (.ok value) => do
          set rest
          pure value
      | some (.error error) => do
          set rest
          throw (.raised error)

def raise (error : ε) : Script ε A α := throw (.raised error)

/-- Raise another error in place of the one that was raised. -/
def translate (f : ε → ε) (p : Script ε A α) : Script ε A α :=
  tryCatch p fun
    | .raised error => raise (f error)
    | .unanswered => throw .unanswered

def Ends (p : Script ε A α) (post : α → List A → Prop) (abort : List A → Prop) : Prop :=
  ∀ s, match p.run s with
    | .ok a t => ∃ used, s = used ++ t ∧ post a used
    | .error (.raised _) t => ∃ used, s = used ++ t ∧ abort used
    | .error .unanswered _ => True

namespace Ends

variable {p : Script ε A α} {f : α → Script ε A β} {post post' : α → List A → Prop}
  {abort abort' : List A → Prop}

theorem of_ok (ends : Ends p post abort) {s t : List A} {a : α} (returned : p.run s = .ok a t) :
    ∃ used, s = used ++ t ∧ post a used := by
  have holds := ends s
  rwa [returned] at holds

theorem of_raised (ends : Ends p post abort) {s t : List A} {error : ε}
    (raised : p.run s = .error (.raised error) t) : ∃ used, s = used ++ t ∧ abort used := by
  have holds := ends s
  rwa [raised] at holds

theorem mono (ends : Ends p post abort) (returned : ∀ a used, post a used → post' a used)
    (raised : ∀ used, abort used → abort' used) : Ends p post' abort' := by
  intro s
  have holds := ends s
  rcases ended : p.run s with ⟨a, t⟩ | ⟨⟨error⟩ | _, t⟩
  · rw [ended] at holds
    obtain ⟨used, whole, told⟩ := holds
    exact ⟨used, whole, returned a used told⟩
  · rw [ended] at holds
    obtain ⟨used, whole, told⟩ := holds
    exact ⟨used, whole, raised used told⟩
  · trivial

protected theorem pure {a : α} (told : post a []) :
    Ends (pure a : Script ε A α) post abort :=
  fun _ => ⟨[], rfl, told⟩

protected theorem raise {error : ε} (told : abort []) :
    Ends (raise error : Script ε A α) post abort :=
  fun _ => ⟨[], rfl, told⟩

protected theorem unanswered : Ends (throw .unanswered : Script ε A α) post abort :=
  fun _ => trivial

/-- One answer is taken. -/
theorem ask {fits : A → Option (Except ε α)}
    (value : ∀ answer a, fits answer = some (.ok a) → post a [answer])
    (error : ∀ answer e, fits answer = some (.error e) → abort [answer]) :
    Ends (Script.ask fits) post abort := by
  rintro (_ | ⟨answer, rest⟩)
  · trivial
  · have unfolded : (Script.ask fits).run (answer :: rest) =
        match fits answer with
        | none => .error .unanswered (answer :: rest)
        | some (.ok a) => .ok a rest
        | some (.error e) => .error (.raised e) rest := by
      change EStateM.run (match fits answer with
        | none => _ | some (.ok _) => _ | some (.error _) => _) _ = _
      split <;> rfl
    rw [unfolded]
    rcases fit : fits answer with _ | e | a
    · trivial
    · exact ⟨[answer], rfl, error answer e fit⟩
    · exact ⟨[answer], rfl, value answer a fit⟩

protected theorem translate (g : ε → ε) (ends : Ends p post abort) :
    Ends (translate g p) post abort := by
  intro s
  have holds := ends s
  have unfolded : (translate g p).run s = EStateM.tryCatch p (fun
      | .raised error => raise (g error)
      | .unanswered => throw .unanswered) s := rfl
  rw [unfolded, EStateM.tryCatch]
  rcases ended : p s with ⟨a, t⟩ | ⟨⟨error⟩ | _, t⟩
  · rwa [EStateM.run, ended] at holds
  · rwa [EStateM.run, ended] at holds
  · trivial

/-- What follows takes the answers that come next. -/
protected theorem bind {post' : β → List A → Prop} (first : Ends p post abort)
    (raised : ∀ used, abort used → abort' used)
    (second : ∀ a used, post a used →
      Ends (f a) (fun b later => post' b (used ++ later)) fun later => abort' (used ++ later)) :
    Ends (p >>= f) post' abort' := by
  intro s
  rw [EStateM.run_bind]
  have holds := first s
  rcases ended : p.run s with ⟨a, r⟩ | ⟨⟨error⟩ | _, r⟩
  · rw [ended] at holds
    obtain ⟨used, rfl, told⟩ := holds
    have later := second a used told r
    change match (f a).run r with
      | .ok _ _ => _ | .error (.raised _) _ => _ | .error .unanswered _ => _
    rcases goes : (f a).run r with ⟨b, t⟩ | ⟨⟨error⟩ | _, t⟩
    · rw [goes] at later
      obtain ⟨more, rfl, tells⟩ := later
      exact ⟨used ++ more, (List.append_assoc ..).symm, tells⟩
    · rw [goes] at later
      obtain ⟨more, rfl, tells⟩ := later
      exact ⟨used ++ more, (List.append_assoc ..).symm, tells⟩
    · trivial
  · rw [ended] at holds
    obtain ⟨used, whole, told⟩ := holds
    exact ⟨used, whole, raised used told⟩
  · trivial

protected theorem ite {c : Prop} [Decidable c] {p q : Script ε A α}
    (yes : c → Ends p post abort) (no : ¬ c → Ends q post abort) :
    Ends (if c then p else q) post abort := by
  split
  · exact yes ‹c›
  · exact no ‹¬ c›

/-- A loop that is given as many turns as answers are left. -/
theorem get_bind {f : List A → Script ε A β} {post : β → List A → Prop}
    (any : ∀ s, Ends (f s) post abort) : Ends (get >>= f) post abort :=
  fun s => any s s

end Ends

end Script

end Libdebug.Foundation
