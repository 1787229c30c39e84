import Libdebug.Foundation.Dict
import Libdebug.Foundation.Numerals
import Mathlib.Algebra.Group.Int.Defs
import Mathlib.Algebra.Group.Nat.Defs

/-!
Starting a program. `PtraceInterface.run` starts `jumpstart` instead, with the environment and the
arguments of the program in its own arguments; `jumpstart` takes them apart in place, and has the
program executed.

The two agree on positions only: a count, the variables, one slot that becomes the end of the
variables, the arguments.
-/

namespace Libdebug.Ptrace.Launcher

open Libdebug.Foundation

/-! ### `PtraceInterface.run` -/

/-- The variables as `key=value` -/
def entries (env : Dict String String) : List String :=
  env.entries.map fun entry => entry.1 ++ "=" ++ entry.2

/-- `env_len`: no environment counts as -1 variables. -/
def envLen (env : Option (Dict String String)) : Int :=
  match env with
  | none => -1
  | some env => env.entries.length

/-- The arguments of `jumpstart` -/
def jumpstartArgv (jumpstart : String) (argv : List String) (env : Option (Dict String String)) :
    List String :=
  [jumpstart, String.ofList (toDecimal (envLen env))] ++ entries (env.getD .empty) ++ ["NULL"] ++
    argv

/-! ### The vectors of C -/

/-- `'\0'` -/
def nul : Char := Char.ofNat 0

/-- A string as C sees it, up to the first NUL -/
def cString (text : String) : String := String.ofList (text.toList.takeWhile (· ≠ nul))

/-- `char **`: the pointers from a position of the array on; `none` is a null pointer. -/
abbrev Pointers := List (Option String)

/-- The strings in front of the first null pointer -/
def strings : Pointers → List String
  | some text :: rest => text :: strings rest
  | _ => []

/-- What a new process finds in its `argv` -/
def spawned (argv : List String) : Pointers := argv.map (some ∘ cString) ++ [none]

/-! ### `jumpstart.c` -/

/-- `atoi`: the result of `strtol`, which keeps to 64 bits, as an `int` -/
def atoi (text : String) : Int :=
  (max (-2 ^ 63) (min (2 ^ 63 - 1) (readDecimal text.toList))).bmod (2 ^ 32)

/-- A call of `execve` -/
structure Execve where
  path : String
  argv : List String
  environ : List String
  deriving DecidableEq

/-- `main`, up to its `execve`; there is none where a null pointer is read, or something is written
outside the array. -/
def main (environ : List String) (argv : Pointers) : Option Execve := do
  let text ← argv[1]?.join
  let envLen := atoi text
  let argvOffset := (if envLen > 0 then envLen else 0).toNat
  guard (2 + argvOffset < argv.length)
  let argv := argv.set (2 + argvOffset) none
  let newEnviron := argv.drop 2
  let newArgv := argv.drop (2 + argvOffset + 1)
  let path ← newArgv.head?.join
  if envLen = -1 then
    pure ⟨path, strings newArgv, environ⟩
  else
    pure ⟨path, strings newArgv, strings newEnviron⟩

/-- `posix_spawn` of `jumpstart`, with the environment of the debugger -/
def launch (jumpstart : String) (environ argv : List String)
    (env : Option (Dict String String)) : Option Execve :=
  main environ (spawned (jumpstartArgv jumpstart argv env))

/-! ### The vectors, read back -/

def NulFree (text : String) : Prop := nul ∉ text.toList

instance (text : String) : Decidable (NulFree text) :=
  inferInstanceAs (Decidable (nul ∉ text.toList))

theorem cString_of_nulFree {text : String} (free : NulFree text) : cString text = text := by
  have all : ∀ c ∈ text.toList, decide (c ≠ nul) = true := by
    intro c member
    exact decide_eq_true fun same => free (same ▸ member)
  rw [cString, List.takeWhile_eq_self_iff.mpr all, String.ofList_toList]

theorem nulFree_decimal (number : Int) : NulFree (String.ofList (toDecimal number)) := by
  intro member
  rw [String.toList_ofList] at member
  have digit (n : Nat) : nul ∉ Nat.toDigits 10 n := by
    intro there
    have isDigit := isDigit_of_mem_decimal (n := n) nul there
    cases isDigit
  cases number with
  | ofNat n => exact digit n member
  | negSucc n =>
      rcases List.mem_cons.mp member with sign | there
      · cases sign
      · exact digit (n + 1) there

theorem strings_append {texts : List String} {rest : Pointers} :
    strings (texts.map some ++ none :: rest) = texts := by
  induction texts with
  | nil => rfl
  | cons text texts ih => exact congrArg (text :: ·) ih

/-- A number that fits is read as it was written. -/
theorem atoi_decimal {number : Int} (least : -2 ^ 31 ≤ number) (greatest : number < 2 ^ 31) :
    atoi (String.ofList (toDecimal number)) = number := by
  have clamped : max (-2 ^ 63) (min (2 ^ 63 - 1) number) = number := by omega
  rw [atoi, String.toList_ofList, readDecimal_toDecimal, clamped]
  exact Int.bmod_eq_of_le (by omega) (by omega)

/-! ### The round trip -/

section RoundTrip

variable {jumpstart program : String} {args environ : List String}
  {env : Option (Dict String String)}

theorem jumpstartArgv_eq (argv : List String) : jumpstartArgv jumpstart argv env =
    jumpstart :: String.ofList (toDecimal (envLen env)) ::
      (entries (env.getD .empty) ++ "NULL" :: argv) := by
  simp only [jumpstartArgv, envLen, List.cons_append, List.nil_append, List.append_assoc]

theorem length_entries : (if envLen env > 0 then envLen env else 0).toNat =
    (entries (env.getD .empty)).length := by
  cases env with
  | none => rfl
  | some env =>
      rw [envLen, Option.getD_some, entries, List.length_map]
      split <;> omega

/-- The strings that the debugger passes on hold no NUL. -/
structure Passable (argv : List String) (env : Option (Dict String String)) : Prop where
  argv : ∀ arg ∈ argv, NulFree arg
  env : ∀ vars ∈ env, ∀ entry ∈ vars.entries, NulFree entry.1 ∧ NulFree entry.2

theorem Passable.entries {argv : List String} (passable : Passable argv env) :
    ∀ text ∈ entries (env.getD .empty), NulFree text := by
  intro text member
  cases env with
  | none => cases member
  | some vars =>
      obtain ⟨entry, there, rfl⟩ := List.mem_map.mp member
      obtain ⟨key, value⟩ := passable.env vars rfl entry there
      intro holds
      simp only [String.toList_append, List.mem_append] at holds
      rcases holds with (inKey | sign) | inValue
      · exact key inKey
      · exact absurd sign (by decide)
      · exact value inValue

/-- What `jumpstart` is started with -/
theorem spawned_eq {argv : List String} (passable : Passable argv env) :
    spawned (jumpstartArgv jumpstart argv env) =
      some (cString jumpstart) :: some (String.ofList (toDecimal (envLen env))) ::
        ((entries (env.getD .empty)).map some ++ some "NULL" :: (argv.map some ++ [none])) := by
  have kept (texts : List String) (free : ∀ text ∈ texts, NulFree text) :
      texts.map (some ∘ cString) = texts.map some := by
    apply List.map_congr_left
    intro text member
    exact congrArg some (cString_of_nulFree (free text member))
  have word : cString "NULL" = "NULL" := by decide
  rw [spawned, jumpstartArgv_eq]
  simp only [List.map_cons, List.map_append, Function.comp_apply, word,
    cString_of_nulFree (nulFree_decimal _), kept _ passable.entries, kept _ passable.argv,
    List.cons_append, List.append_assoc]

/-- The slot of the word `NULL` is found behind the variables, and the arguments behind it: the
program is executed with its arguments, and with its environment if it has one. The arguments of
`jumpstart` are counted in an `int`. -/
theorem launch_round_trips (passable : Passable (program :: args) env)
    (fits : (jumpstartArgv jumpstart (program :: args) env).length < 2 ^ 31) :
    launch jumpstart environ (program :: args) env =
      some ⟨program, program :: args,
        match env with
        | none => environ
        | some vars => entries vars⟩ := by
  set vars := entries (env.getD .empty) with named
  have bounds : -2 ^ 31 ≤ envLen env ∧ envLen env < 2 ^ 31 := by
    rw [jumpstartArgv_eq] at fits
    simp only [List.length_cons, List.length_append] at fits
    have counted : (if envLen env > 0 then envLen env else 0).toNat =
        (entries (env.getD .empty)).length := length_entries
    cases env with
    | none => exact ⟨by decide, by decide⟩
    | some env =>
        simp only [envLen] at counted ⊢
        omega
  have offset : (if envLen env > 0 then envLen env else 0).toNat = vars.length := length_entries
  have vector : spawned (jumpstartArgv jumpstart (program :: args) env) = _ := spawned_eq passable
  rw [← named] at vector
  have count := atoi_decimal bounds.1 bounds.2
  set front : Pointers :=
    [some (cString jumpstart), some (String.ofList (toDecimal (envLen env)))] with begins
  set last : Pointers := (program :: args).map some ++ [none] with ends
  have shape : spawned (jumpstartArgv jumpstart (program :: args) env) =
      front ++ (vars.map some ++ some "NULL" :: last) := vector
  have slot : (front ++ (vars.map some ++ some "NULL" :: last)).set (2 + vars.length) none =
      front ++ (vars.map some ++ none :: last) := by
    rw [Nat.add_comm, begins]
    simp only [List.cons_append, List.nil_append, List.set_cons_succ]
    rw [List.set_append_right _ _ (by simp)]
    simp
  have newEnviron : (front ++ (vars.map some ++ none :: last)).drop 2 =
      vars.map some ++ none :: last := rfl
  have newArgv : (front ++ (vars.map some ++ none :: last)).drop (2 + vars.length + 1) = last := by
    have length : (vars.map some ++ [none] : Pointers).length = vars.length + 1 := by simp
    rw [Nat.add_assoc, ← List.drop_drop, newEnviron, List.append_cons]
    exact List.drop_left' length
  have inside : 2 + vars.length < (front ++ (vars.map some ++ some "NULL" :: last)).length := by
    simp [begins]
    omega
  have argument : (front ++ (vars.map some ++ some "NULL" :: last))[1]?.join =
      some (String.ofList (toDecimal (envLen env))) := rfl
  have path : last.head?.join = some program := rfl
  have arguments : strings last = program :: args := strings_append
  have environment : strings (vars.map some ++ none :: last) = vars := strings_append
  rw [launch, shape, main, argument]
  simp only [Option.bind_eq_bind, Option.bind_some, count, offset, guard, inside, if_true, slot,
    newEnviron, newArgv, path, arguments, environment]
  change (if envLen env = -1 then some (⟨program, program :: args, environ⟩ : Execve)
    else some ⟨program, program :: args, vars⟩) = _
  cases env with
  | none => exact if_pos rfl
  | some env =>
      have counted : envLen (some env) ≠ -1 := by
        rw [envLen]
        omega
      exact if_neg counted

end RoundTrip

/-- A variable whose value is the word that marks the slot, and an argument that is this word -/
theorem launch_null :
    launch "jumpstart" ["HOME=/"] ["/bin/echo", "NULL"]
        (some ⟨[("A", "NULL"), ("B", "")], by decide⟩) =
      some ⟨"/bin/echo", ["/bin/echo", "NULL"], ["A=NULL", "B="]⟩ := by
  refine launch_round_trips ⟨by decide, ?_⟩ (by decide)
  intro vars given
  cases given
  decide

end Libdebug.Ptrace.Launcher
