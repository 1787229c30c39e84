import Mathlib.Tactic.Tauto

/-!
Programs with scoped blocks.

A block saves something of the world, enters with changes that may fail half-way, runs its body,
and leaves with changes of its own, also when the body raises. `exec` notes every world between
two operations and, for each block, the world just before it and the one just after.
`restores_iff` is the rule: where an invariant is kept by the steps and by every entry, all blocks
of a run restore the world and the invariant holds throughout if and only if every entry that
fails has changed nothing and the leaving of every body gives back the world before the block.
-/

namespace Libdebug.Foundation

/-- What the operations of a language with blocks do -/
structure Scoping (W Op Args Saved Error : Type) where
  step : Op → EStateM Error W Unit
  save : W → Saved
  enter : Args → EStateM Error W Unit
  leave : Saved → EStateM Error W Unit

/-- A program: its operations in order, exceptions that are raised and caught, and blocks -/
inductive ScopedProgram (Op Args Error : Type) where
  | skip
  | step (op : Op)
  | throw (error : Error)
  | seq (first second : ScopedProgram Op Args Error)
  | attempt (body : ScopedProgram Op Args Error)
  | block (args : Args) (body : ScopedProgram Op Args Error)

structure Execution (W Error : Type) where
  /-- The exception that leaves the program -/
  raised : Option Error
  world : W
  /-- The worlds between two operations -/
  moments : List W
  /-- For each block that is left, the worlds just before and just after it -/
  exits : List (W × W)

/-- A run satisfies the invariant at every moment, and every block restores the world. -/
def Execution.Restores {W Error : Type} (run : Execution W Error) (invariant : W → Prop) : Prop :=
  (∀ moment ∈ run.moments, invariant moment) ∧ ∀ exit ∈ run.exits, exit.2 = exit.1

section Results

variable {Error W A : Type}

def settledWorld : EStateM.Result Error W A → W
  | .ok _ world => world
  | .error _ world => world

def settledError : EStateM.Result Error W A → Option Error
  | .ok _ _ => none
  | .error error _ => some error

end Results

namespace Scoping

variable {W Op Args Saved Error : Type} (S : Scoping W Op Args Saved Error)

def exec : ScopedProgram Op Args Error → W → Execution W Error
  | .skip, world => ⟨none, world, [], []⟩
  | .step op, world =>
      let result := (S.step op).run world
      ⟨settledError result, settledWorld result, [settledWorld result], []⟩
  | .throw error, world => ⟨some error, world, [], []⟩
  | .seq first second, world =>
      let before := exec first world
      match before.raised with
      | some _ => before
      | none =>
          let after := exec second before.world
          ⟨after.raised, after.world, before.moments ++ after.moments, before.exits ++ after.exits⟩
  | .attempt body, world => { exec body world with raised := none }
  | .block args body, before =>
      match (S.enter args).run before with
      | .error error world => ⟨some error, world, [world], [(before, world)]⟩
      | .ok _ entered =>
          let inside := exec body entered
          let result := (S.leave (S.save before)).run inside.world
          let world := settledWorld result
          ⟨(settledError result).or inside.raised, world, entered :: inside.moments ++ [world],
            inside.exits ++ [(before, world)]⟩

/-- Along a run, `failing` holds of the arguments and the world at every entry that fails, and
`kept` of the worlds before the block and at the end of its body at every other block. -/
def Along (failing : Args → W → Prop) (kept : W → W → Prop) :
    ScopedProgram Op Args Error → W → Prop
  | .skip, _ | .step _, _ | .throw _, _ => True
  | .seq first second, world =>
      Along failing kept first world ∧
        ((S.exec first world).raised = none →
          Along failing kept second (S.exec first world).world)
  | .attempt body, world => Along failing kept body world
  | .block args body, before =>
      match (S.enter args).run before with
      | .error _ _ => failing args before
      | .ok _ entered => Along failing kept body entered ∧ kept before (S.exec body entered).world

/-- What a language has to satisfy for `restores_iff` -/
structure Lawful (invariant : W → Prop) (failing : Args → W → Prop) (kept : W → W → Prop) :
    Prop where
  step : ∀ op world, invariant world → invariant (settledWorld ((S.step op).run world))
  enter : ∀ args world, invariant world → invariant (settledWorld ((S.enter args).run world))
  failing_iff : ∀ args before error world, invariant before →
    (S.enter args).run before = .error error world → (world = before ↔ failing args before)
  kept_iff : ∀ before world, invariant before →
    (settledWorld ((S.leave (S.save before)).run world) = before ↔ kept before world)

variable {S} {invariant : W → Prop} {failing : Args → W → Prop} {kept : W → W → Prop}

/-! ### The rule -/

section Rule

variable {world : W}

theorem exec_seq_raised {first second : ScopedProgram Op Args Error} {error : Error}
    (raised : (S.exec first world).raised = some error) :
    S.exec (.seq first second) world = S.exec first world := by
  rw [exec]
  simp only [raised]

theorem exec_seq_returned {first second : ScopedProgram Op Args Error}
    (returned : (S.exec first world).raised = none) :
    S.exec (.seq first second) world =
      let before := S.exec first world
      let after := S.exec second before.world
      ⟨after.raised, after.world, before.moments ++ after.moments,
        before.exits ++ after.exits⟩ := by
  rw [exec]
  simp only [returned]

theorem exec_block_failed {args : Args} {body : ScopedProgram Op Args Error} {error : Error}
    {before : W} (failed : (S.enter args).run before = .error error world) :
    S.exec (.block args body) before = ⟨some error, world, [world], [(before, world)]⟩ := by
  rw [exec, failed]

theorem exec_block_entered {args : Args} {body : ScopedProgram Op Args Error} {before entered : W}
    (enters : (S.enter args).run before = .ok () entered) :
    S.exec (.block args body) before =
      let inside := S.exec body entered
      let result := (S.leave (S.save before)).run inside.world
      ⟨(settledError result).or inside.raised, settledWorld result,
        entered :: inside.moments ++ [settledWorld result],
        inside.exits ++ [(before, settledWorld result)]⟩ := by
  rw [exec, enters]

theorem along_block_failed {args : Args} {body : ScopedProgram Op Args Error} {error : Error}
    {before : W} (failed : (S.enter args).run before = .error error world) :
    S.Along failing kept (.block args body) before ↔ failing args before := by
  rw [Along, failed]

theorem along_block_entered {args : Args} {body : ScopedProgram Op Args Error}
    {before entered : W} (enters : (S.enter args).run before = .ok () entered) :
    S.Along failing kept (.block args body) before ↔
      S.Along failing kept body entered ∧ kept before (S.exec body entered).world := by
  rw [Along, enters]

theorem restores_append {first second : Execution W Error} {raised : Option Error} :
    (⟨raised, world, first.moments ++ second.moments, first.exits ++ second.exits⟩ :
        Execution W Error).Restores invariant ↔
      first.Restores invariant ∧ second.Restores invariant := by
  simp only [Execution.Restores, List.forall_mem_append]
  tauto

theorem restores_block {inside : Execution W Error} {raised : Option Error} {entered before : W} :
    (⟨raised, world, entered :: inside.moments ++ [world], inside.exits ++ [(before, world)]⟩ :
        Execution W Error).Restores invariant ↔
      (invariant entered ∧ invariant world ∧ world = before) ∧ inside.Restores invariant := by
  simp only [Execution.Restores, List.cons_append, List.forall_mem_cons, List.forall_mem_append]
  tauto

end Rule

/-- The induction is on the program; that the invariant holds at the end of a run that restores
carries it over sequences. -/
theorem restores_iff_and (lawful : S.Lawful invariant failing kept)
    (program : ScopedProgram Op Args Error) {world : W} (holds : invariant world) :
    ((S.exec program world).Restores invariant ↔ S.Along failing kept program world) ∧
      (S.Along failing kept program world → invariant (S.exec program world).world) := by
  induction program generalizing world with
  | skip => simp [exec, Along, Execution.Restores, holds]
  | throw error => simp [exec, Along, Execution.Restores, holds]
  | step op => simp [exec, Along, Execution.Restores, lawful.step op world holds]
  | attempt body ih => exact ih holds
  | seq first second ihFirst ihSecond =>
      obtain ⟨firstIff, firstEnds⟩ := ihFirst holds
      cases ends : (S.exec first world).raised with
      | some error =>
          rw [exec_seq_raised ends, Along]
          simp only [ends, reduceCtorEq, false_implies, and_true]
          exact ⟨firstIff, firstEnds⟩
      | none =>
          rw [exec_seq_returned ends, restores_append, firstIff, Along]
          simp only [ends, true_implies]
          constructor
          · exact and_congr_right fun along => (ihSecond (firstEnds along)).1
          · rintro ⟨along, alongSecond⟩
            exact (ihSecond (firstEnds along)).2 alongSecond
  | block args body ih =>
      cases enters : (S.enter args).run world with
      | error error failed =>
          have failedIff := lawful.failing_iff args world error failed holds enters
          have failedHolds := lawful.enter args world holds
          rw [enters] at failedHolds
          rw [exec_block_failed enters, along_block_failed enters]
          constructor
          · simp only [Execution.Restores, List.forall_mem_singleton]
            exact ⟨fun restores => failedIff.mp restores.2,
              fun nothing => ⟨failedHolds, failedIff.mpr nothing⟩⟩
          · intro _
            exact failedHolds
      | ok result entered =>
          have enteredHolds := lawful.enter args world holds
          rw [enters] at enteredHolds
          obtain ⟨bodyIff, _⟩ := ih enteredHolds
          have keptIff := lawful.kept_iff world (S.exec body entered).world holds
          rw [along_block_entered enters, exec_block_entered enters, restores_block]
          constructor
          · constructor
            · rintro ⟨⟨_, _, back⟩, inside⟩
              exact ⟨bodyIff.mp inside, keptIff.mp back⟩
            · rintro ⟨along, same⟩
              have back := keptIff.mpr same
              exact ⟨⟨enteredHolds, back.symm ▸ holds, back⟩, bodyIff.mpr along⟩
          · rintro ⟨_, same⟩
            have back := keptIff.mpr same
            change invariant (settledWorld _)
            rw [back]
            exact holds

theorem restores_iff (lawful : S.Lawful invariant failing kept)
    (program : ScopedProgram Op Args Error) {world : W} (holds : invariant world) :
    (S.exec program world).Restores invariant ↔ S.Along failing kept program world :=
  (restores_iff_and lawful program holds).1

end Scoping

end Libdebug.Foundation
