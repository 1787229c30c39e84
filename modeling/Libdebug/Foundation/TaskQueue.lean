/-!
Queues that count unfinished tasks, as in the `queue` module: an item put counts as
unfinished until, after it has been taken, it is reported done. `join` waits until
nothing is unfinished.
-/

namespace Libdebug.Foundation

structure TaskQueue (α : Type) where
  items : List α
  /-- the items taken and not reported done -/
  taken : Nat
  deriving DecidableEq

namespace TaskQueue

variable {α : Type}

def empty : TaskQueue α := ⟨[], 0⟩

def unfinished (q : TaskQueue α) : Nat := q.items.length + q.taken

def put (q : TaskQueue α) (item : α) : TaskQueue α := { q with items := q.items ++ [item] }

def get? (q : TaskQueue α) : Option (α × TaskQueue α) :=
  match q.items with
  | [] => none
  | item :: rest => some (item, ⟨rest, q.taken + 1⟩)

def taskDone (q : TaskQueue α) : TaskQueue α := { q with taken := q.taken - 1 }

variable {q rest : TaskQueue α} {item : α}

@[simp] theorem put_items : (q.put item).items = q.items ++ [item] := rfl

@[simp] theorem put_taken : (q.put item).taken = q.taken := rfl

@[simp] theorem taskDone_items : q.taskDone.items = q.items := rfl

@[simp] theorem taskDone_taken : q.taskDone.taken = q.taken - 1 := rfl

theorem get?_eq_some : q.get? = some (item, rest) ↔
    q.items = item :: rest.items ∧ rest.taken = q.taken + 1 := by
  unfold get?
  rcases q with ⟨items, taken⟩
  rcases rest with ⟨restItems, restTaken⟩
  cases items with
  | nil => simp
  | cons first others =>
      simp only [Option.some.injEq, Prod.mk.injEq, mk.injEq, List.cons.injEq]
      constructor
      · rintro ⟨rfl, rfl, rfl⟩
        exact ⟨⟨rfl, rfl⟩, rfl⟩
      · rintro ⟨⟨rfl, rfl⟩, rfl⟩
        exact ⟨rfl, rfl, rfl⟩

end TaskQueue

end Libdebug.Foundation
