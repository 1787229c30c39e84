import Mathlib.Data.Sigma.Basic

/-!
Programs that ask questions and go on with the answers.

What a program returns in a fixed world is `answered`; `advance` gives it one answer
at a time, so that the world may change, or somebody else may answer, between two
questions. A program that was given answers of a world so far returns what it would
have returned had it been in that world all along (`answered_of_advance`).
-/

namespace Libdebug.Foundation

variable {Q : Type} {A : Q → Type} {ε α β : Type}

inductive Asking (Q : Type) (A : Q → Type) (α : Type) where
  | done (result : α)
  | ask (question : Q) (next : A question → Asking Q A α)

namespace Asking

def bind (program : Asking Q A α) (f : α → Asking Q A β) : Asking Q A β :=
  match program with
  | done result => f result
  | ask question next => ask question fun answer => (next answer).bind f

instance : Monad (Asking Q A) where
  pure := done
  bind := bind

/-- What the program returns in a world. -/
def answered (world : (q : Q) → A q) : Asking Q A α → α
  | done result => result
  | ask question next => (next (world question)).answered world

def question? : Asking Q A α → Option Q
  | done _ => none
  | ask question _ => some question

def result? : Asking Q A α → Option α
  | done result => some result
  | ask _ _ => none

/-- The program after an answer to its question. -/
def advance [DecidableEq Q] (answer : (q : Q) × A q) : Asking Q A α → Option (Asking Q A α)
  | done _ => none
  | ask question next => if same : answer.1 = question then some (next (same ▸ answer.2)) else none

/-- The program after a list of answers. -/
def follow [DecidableEq Q] : List ((q : Q) × A q) → Asking Q A α → Option (Asking Q A α)
  | [], program => some program
  | answer :: rest, program => (program.advance answer).bind (follow rest)

variable {world : (q : Q) → A q} {program next : Asking Q A α}

@[simp] theorem answered_pure (result : α) :
    answered world (pure result : Asking Q A α) = result := rfl

@[simp] theorem answered_bind (f : α → Asking Q A β) :
    answered world (program >>= f) = answered world (f (answered world program)) := by
  change answered world (program.bind f) = _
  induction program with
  | done result => rfl
  | ask question next ih => exact ih _

theorem answered_of_result {result : α} (returned : program.result? = some result) :
    program.answered world = result := by
  cases program with
  | done _ => exact Option.some.inj returned
  | ask _ _ => cases returned

/-- The answer of the world leaves what the program returns there as it was. -/
theorem answered_of_advance [DecidableEq Q] {answer : (q : Q) × A q}
    (given : world answer.1 = answer.2) (advanced : program.advance answer = some next) :
    next.answered world = program.answered world := by
  obtain ⟨question, answer⟩ := answer
  change world question = answer at given
  subst given
  cases program with
  | done _ => cases advanced
  | ask asked _ =>
      rw [advance] at advanced
      split at advanced
      · next same =>
          cases same
          cases advanced
          rfl
      · cases advanced

theorem answered_of_follow [DecidableEq Q] {answers : List ((q : Q) × A q)}
    (given : ∀ answer ∈ answers, world answer.1 = answer.2)
    (followed : program.follow answers = some next) :
    next.answered world = program.answered world := by
  induction answers generalizing program with
  | nil =>
      cases followed
      rfl
  | cons answer rest ih =>
      obtain ⟨middle, advanced, followed⟩ := Option.bind_eq_some_iff.mp followed
      rw [ih (fun later member => given later (.tail _ member)) followed]
      exact answered_of_advance (given answer (.head _)) advanced

end Asking

/-! ### Programs that may raise -/

abbrev AskingT (ε : Type) (Q : Type) (A : Q → Type) := ExceptT ε (Asking Q A)

namespace AskingT

def ask (ε : Type) (question : Q) : AskingT ε Q A (A question) :=
  ExceptT.mk (Asking.ask question fun answer => Asking.done (.ok answer))

def answered (world : (q : Q) → A q) (program : AskingT ε Q A α) : Except ε α :=
  Asking.answered world program.run

variable {world : (q : Q) → A q}

@[simp] theorem answered_pure (a : α) : answered world (pure a : AskingT ε Q A α) = .ok a := rfl

@[simp] theorem answered_throw (e : ε) :
    answered world (throw e : AskingT ε Q A α) = .error e := rfl

@[simp] theorem answered_ofExcept (result : Except ε α) :
    answered world (MonadExcept.ofExcept result : AskingT ε Q A α) = result := by
  cases result <;> rfl

@[simp] theorem answered_bind (program : AskingT ε Q A α) (f : α → AskingT ε Q A β) :
    answered world (program >>= f) =
      (answered world program).bind fun a => answered world (f a) := by
  change Asking.answered world (program.run >>= ExceptT.bindCont f) = _
  rw [Asking.answered_bind]
  change _ = (Asking.answered world program.run).bind _
  cases Asking.answered world program.run <;> rfl

@[simp] theorem answered_ite (condition : Prop) [Decidable condition]
    (yes no : AskingT ε Q A α) :
    answered world (if condition then yes else no) =
      if condition then answered world yes else answered world no := by
  split <;> rfl

end AskingT

end Libdebug.Foundation
