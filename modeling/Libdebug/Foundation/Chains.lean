import Mathlib.Data.Finset.Card
import Mathlib.Logic.Relation
import Libdebug.Foundation.Effects

/-!
Recursion that remembers where it has been. `walk body` runs `body` on an element, and
`body` may recurse to another element, which then counts as visited. Where it only goes
on to elements of a finite table, and to none twice, fuel for the whole table is never
used up. The places a walk passes form a chain; how the walk ends is decided by the
body at the last of them.
-/

namespace Libdebug.Foundation

variable {ε σ ι κ : Type}

abbrev Body (ε σ ι : Type) :=
  ι → List ι → (ι → List ι → EStateM ε σ Unit) → EStateM ε σ Unit

def walk (body : Body ε σ ι) (exhausted : ε) : Nat → ι → List ι → EStateM ε σ Unit
  | 0, _, _ => throw exhausted
  | fuel + 1, x, visited => body x visited (walk body exhausted fuel)

/-- An element that has its turn, the ones visited before it, and the state then. -/
structure Place (ι σ : Type) where
  current : ι
  before : List ι
  state : σ

def Place.visited (p : Place ι σ) : List ι := p.current :: p.before

/-- `q` follows `p` on a chain: the two are linked, and the element is a new one. -/
structure Follows (link : ι → σ → ι → σ → Prop) (p q : Place ι σ) : Prop where
  linked : link p.current p.state q.current q.state
  fresh : q.current ∉ p.visited
  before : q.before = p.visited

theorem Follows.visited {link : ι → σ → ι → σ → Prop} {p q : Place ι σ}
    (follows : Follows link p q) : q.visited = q.current :: p.visited :=
  congrArg (q.current :: ·) follows.before

/-- A chain leads from `p` to `q`. -/
abbrev Reaches (link : ι → σ → ι → σ → Prop) : Place ι σ → Place ι σ → Prop :=
  Relation.ReflTransGen (Follows link)

/-- The body ends here without recursion. -/
def Ends (body : Body ε σ ι) (p : Place ι σ) (result : EStateM.Result ε σ Unit) : Prop :=
  ∀ recurse, (body p.current p.visited recurse).run p.state = result

theorem Ends.unique {body : Body ε σ ι} {p : Place ι σ} {result other : EStateM.Result ε σ Unit}
    (ends : Ends body p result) (also : Ends body p other) : result = other :=
  (ends fun _ _ => pure ()).symm.trans (also fun _ _ => pure ())

/-- The body goes on to `q`, and when that returns it leaves. -/
def GoesOn (body : Body ε σ ι) (leave : ι → EStateM ε σ Unit) (p q : Place ι σ) : Prop :=
  ∀ recurse, (body p.current p.visited recurse).run p.state =
    (recurse q.current q.visited >>= fun _ => leave p.current).run q.state

/-- At each place the body ends, or goes on to a linked element of a fixed table. -/
structure ChainBody (body : Body ε σ ι) (leave : ι → EStateM ε σ Unit) (table : σ → List ι)
    (link : ι → σ → ι → σ → Prop) : Prop where
  turn : ∀ p : Place ι σ, (∃ result, Ends body p result) ∨ ∃ q, Follows link p q
  goesOn : ∀ {p q}, Follows link p q → GoesOn body leave p q
  listed : ∀ {p q}, Follows link p q → q.current ∈ table q.state
  fixed : ∀ {p q}, Follows link p q → table q.state = table p.state
  leaves : ∀ x s, ∃ t, (leave x).run s = .ok () t

/-- What holds of the first elements and of each that is linked holds of all visited. -/
theorem Reaches.forall_visited {link : ι → σ → ι → σ → Prop} {p q : Place ι σ} {P : ι → Prop}
    (reached : Reaches link p q) (linked : ∀ {x s y t}, link x s y t → P y)
    (initially : ∀ x ∈ p.visited, P x) : ∀ x ∈ q.visited, P x := by
  induction reached with
  | refl => exact initially
  | tail _ follows ih =>
      intro x member
      rw [follows.visited] at member
      rcases List.mem_cons.mp member with rfl | earlier
      · exact linked follows.linked
      · exact ih x earlier

theorem ChainBody.listed_reaches {body : Body ε σ ι} {leave : ι → EStateM ε σ Unit}
    {table : σ → List ι} {link : ι → σ → ι → σ → Prop} {p q : Place ι σ}
    (chained : ChainBody body leave table link) (reached : Reaches link p q)
    (initially : ∀ x ∈ p.visited, x ∈ table p.state) : ∀ x ∈ q.visited, x ∈ table q.state := by
  induction reached with
  | refl => exact initially
  | tail _ follows ih =>
      intro x member
      rw [follows.visited] at member
      rcases List.mem_cons.mp member with rfl | earlier
      · exact chained.listed follows
      · rw [chained.fixed follows]
        exact ih x earlier

/-- An error is passed on as it is; what returns may still be followed by something. -/
def Passes : EStateM.Result ε σ Unit → EStateM.Result ε σ Unit → Prop
  | .ok _ _, outer => ∃ t, outer = .ok () t
  | .error e t, outer => outer = .error e t

theorem Passes.refl (result : EStateM.Result ε σ Unit) : Passes result result := by
  cases result with
  | ok _ t => exact ⟨t, rfl⟩
  | error e t => rfl

/-! ### Fuel -/

section Fuel

variable [DecidableEq ι]

/-- How many elements of the table have not been visited. -/
def unvisited (table visited : List ι) : Nat := (table.toFinset \ visited.toFinset).card

theorem unvisited_lt {table visited : List ι} {x : ι} (listed : x ∈ table)
    (fresh : x ∉ visited) : unvisited table (x :: visited) < unvisited table visited := by
  apply Finset.card_lt_card
  rw [Finset.ssubset_iff_of_subset]
  · exact ⟨x, by simp [listed, fresh], by simp⟩
  · intro y
    simp only [List.toFinset_cons, Finset.mem_sdiff, Finset.mem_insert, not_or]
    exact fun outside => ⟨outside.1, outside.2.2⟩

theorem unvisited_le (table visited : List ι) : unvisited table visited ≤ table.length :=
  (Finset.card_le_card Finset.sdiff_subset).trans table.toFinset_card_le

end Fuel

namespace ChainBody

variable {body : Body ε σ ι} {leave : ι → EStateM ε σ Unit} {table : σ → List ι}
  {link : ι → σ → ι → σ → Prop} {exhausted : ε} {p q : Place ι σ} {fuel : Nat}

/-- A body that goes on does not end: what it goes on to may return or raise. -/
theorem not_ends (chained : ChainBody body leave table link) (follows : Follows link p q)
    (error : ε) {result : EStateM.Result ε σ Unit} : ¬ Ends body p result := by
  intro ends
  have returned := (ends fun _ _ => pure ()).symm.trans (chained.goesOn follows fun _ _ => pure ())
  have raised := (ends fun _ _ => throw error).symm.trans
    (chained.goesOn follows fun _ _ => throw error)
  obtain ⟨t, left⟩ := chained.leaves p.current q.state
  have same : (leave p.current).run q.state = .error error q.state := returned.symm.trans raised
  rw [left] at same
  cases same

/-- What a body that goes on makes of the result of the rest of the walk. -/
def afterwards (last : EStateM ε σ Unit) : EStateM.Result ε σ Unit → EStateM.Result ε σ Unit
  | .ok _ t => last.run t
  | .error e t => .error e t

theorem walk_ends {result : EStateM.Result ε σ Unit} (ends : Ends body p result) :
    (walk body exhausted (fuel + 1) p.current p.visited).run p.state = result := ends _

theorem walk_goesOn (onwards : GoesOn body leave p q) :
    (walk body exhausted (fuel + 1) p.current p.visited).run p.state =
      afterwards (leave p.current)
        ((walk body exhausted fuel q.current q.visited).run q.state) := by
  rw [walk, onwards, EStateM.run_bind]
  cases (walk body exhausted fuel q.current q.visited).run q.state <;> rfl

theorem afterwards_passes (chained : ChainBody body leave table link) {x : ι}
    {result inner : EStateM.Result ε σ Unit} (passes : Passes result inner) :
    Passes result (afterwards (leave x) inner) := by
  cases result with
  | ok _ t =>
      obtain ⟨s, rfl⟩ := passes
      exact chained.leaves x s
  | error e t =>
      obtain rfl := passes
      rfl

variable [DecidableEq ι] (exhausted)

theorem enough_follows (chained : ChainBody body leave table link) (follows : Follows link p q)
    (enough : unvisited (table p.state) p.visited < fuel + 1) :
    unvisited (table q.state) q.visited < fuel := by
  have fewer := unvisited_lt (chained.listed follows) follows.fresh
  rw [follows.visited, chained.fixed follows]
  rw [chained.fixed follows] at fewer
  omega

/-- What holds of the places at which a walk ends, and of a place whenever it holds of the
one that follows, holds of every walk with fuel for the table. -/
theorem walk_induct (chained : ChainBody body leave table link)
    {motive : Place ι σ → EStateM.Result ε σ Unit → Prop}
    (ends : ∀ p result, Ends body p result → motive p result)
    (follows : ∀ p q result, Follows link p q → motive q result →
      motive p (afterwards (leave p.current) result))
    (p : Place ι σ) (enough : unvisited (table p.state) p.visited < fuel) :
    motive p ((walk body exhausted fuel p.current p.visited).run p.state) := by
  induction fuel generalizing p with
  | zero => exact absurd enough (Nat.not_lt_zero _)
  | succ fuel ih =>
      rcases chained.turn p with ⟨result, here⟩ | ⟨q, onwards⟩
      · rw [walk_ends here]
        exact ends p result here
      · rw [walk_goesOn (chained.goesOn onwards)]
        apply follows p q _ onwards
        exact ih q (chained.enough_follows onwards enough)

/-- A walk ends as the body does at a place that a chain leads to. -/
theorem walk_reaches (chained : ChainBody body leave table link) (p : Place ι σ)
    (enough : unvisited (table p.state) p.visited < fuel) :
    ∃ q result, Reaches link p q ∧ Ends body q result ∧
      Passes result ((walk body exhausted fuel p.current p.visited).run p.state) := by
  apply chained.walk_induct exhausted (motive := fun p outer =>
    ∃ q result, Reaches link p q ∧ Ends body q result ∧ Passes result outer) _ _ p enough
  · intro p result here
    exact ⟨p, result, .refl, here, Passes.refl result⟩
  · rintro p q inner onwards ⟨last, result, reached, here, passes⟩
    exact ⟨last, result, .head onwards reached, here, chained.afterwards_passes passes⟩

/-- Wherever a chain leads to a place at which the body ends, the walk ends so. -/
theorem walk_of_reaches (chained : ChainBody body leave table link)
    {result : EStateM.Result ε σ Unit} (reached : Reaches link p q) (ends : Ends body q result)
    (enough : unvisited (table p.state) p.visited < fuel) :
    Passes result ((walk body exhausted fuel p.current p.visited).run p.state) := by
  induction reached using Relation.ReflTransGen.head_induction_on generalizing fuel with
  | refl =>
      obtain ⟨fuel, rfl⟩ := Nat.exists_eq_succ_of_ne_zero (Nat.ne_zero_of_lt enough)
      rw [walk_ends ends]
      exact Passes.refl result
  | head onwards _ ih =>
      obtain ⟨fuel, rfl⟩ := Nat.exists_eq_succ_of_ne_zero (Nat.ne_zero_of_lt enough)
      rw [walk_goesOn (chained.goesOn onwards)]
      exact chained.afterwards_passes (ih (chained.enough_follows onwards enough))

end ChainBody

/-! ### Elements have their turn once -/

/-- A log of turns: those of distinct elements, which were not visited before. -/
def LogsOnce (log : σ → List κ) (site : ι → κ) (p : Place ι σ) (t : σ) : Prop :=
  ∃ turns : List ι, log t = turns.map site ++ log p.state ∧ turns.Nodup ∧
    ∀ x ∈ turns, x = p.current ∨ x ∉ p.visited

theorem LogsOnce.of_same {log : σ → List κ} {site : ι → κ} {p : Place ι σ} {t : σ}
    (same : log t = log p.state) : LogsOnce log site p t :=
  ⟨[], same, List.nodup_nil, by simp⟩

theorem LogsOnce.of_turn {log : σ → List κ} {site : ι → κ} {p : Place ι σ} {t : σ}
    (logged : log t = site p.current :: log p.state) : LogsOnce log site p t :=
  ⟨[p.current], logged, List.nodup_singleton _, by simp⟩

def finalState : EStateM.Result ε σ Unit → σ
  | .ok _ t => t
  | .error _ t => t

theorem stateAfter_eq_finalState (program : EStateM ε σ Unit) (s : σ) :
    stateAfter program s = finalState (program.run s) := by
  unfold stateAfter
  cases program.run s <;> rfl

theorem logsOnce_follows {log : σ → List κ} {site : ι → κ} {link : ι → σ → ι → σ → Prop}
    {p q : Place ι σ} {t : σ} (follows : Follows link p q)
    (logged : log q.state = site p.current :: log p.state) (once : LogsOnce log site q t) :
    LogsOnce log site p t := by
  obtain ⟨turns, same, nodup, fresh⟩ := once
  have unvisited : ∀ x ∈ turns, x ∉ p.visited := by
    intro x member
    rcases fresh x member with rfl | absent
    · exact follows.fresh
    · rw [follows.visited] at absent
      exact fun visited => absent (List.mem_cons_of_mem _ visited)
  refine ⟨turns ++ [p.current], ?_, ?_, ?_⟩
  · rw [same, logged, List.map_append, List.append_assoc]
    rfl
  · apply nodup.append (List.nodup_singleton _)
    rw [List.disjoint_singleton]
    exact fun member => unvisited _ member List.mem_cons_self
  · intro x member
    rcases List.mem_append.mp member with earlier | own
    · exact .inr (unvisited x earlier)
    · exact .inl (List.mem_singleton.mp own)

theorem ChainBody.walk_logsOnce [DecidableEq ι] {body : Body ε σ ι}
    {leave : ι → EStateM ε σ Unit} {table : σ → List ι} {link : ι → σ → ι → σ → Prop}
    {log : σ → List κ} {site : ι → κ} {fuel : Nat}
    (chained : ChainBody body leave table link) (exhausted : ε)
    (ends : ∀ p result, Ends body p result → LogsOnce log site p (finalState result))
    (follows : ∀ p q, Follows link p q → log q.state = site p.current :: log p.state)
    (leaves : ∀ x, Leaves log (leave x)) (p : Place ι σ)
    (enough : unvisited (table p.state) p.visited < fuel) :
    LogsOnce log site p
      (stateAfter (walk body exhausted fuel p.current p.visited) p.state) := by
  rw [stateAfter_eq_finalState]
  apply chained.walk_induct exhausted
    (motive := fun p result => LogsOnce log site p (finalState result))
    ends _ p enough
  intro p q inner onwards once
  cases inner with
  | error e t => exact logsOnce_follows onwards (follows p q onwards) once
  | ok _ t =>
      have same : log (finalState ((leave p.current).run t)) = log t :=
        stateAfter_eq_finalState (leave p.current) t ▸ leaves p.current t
      obtain ⟨turns, logged, rest⟩ := logsOnce_follows onwards (follows p q onwards) once
      exact ⟨turns, same.trans logged, rest⟩

end Libdebug.Foundation
