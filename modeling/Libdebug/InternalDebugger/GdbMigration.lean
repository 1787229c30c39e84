import Libdebug.Foundation.Numerals
import Libdebug.Ptrace.State

/-!
The command line by which a session migrates to GDB, and the breakpoints that GDB makes of it.
`hex()` writes a prefix in front of the digits, the format of the watchpoints does not, and GDB
takes a number without one for a decimal.
-/

namespace Libdebug.InternalDebugger.GdbMigration

open Libdebug.Foundation Libdebug.Cffi Libdebug.Ptrace

/-! ### The command line -/

/-- `hex(n)` -/
def hex (n : Nat) : String := "0x" ++ toHex n

/-- `f"{n}"` -/
def decimal (n : Nat) : String := String.ofList (Nat.toDigits 10 n)

/-- The argument by which GDB is told of a breakpoint -/
def breakpointCommand (bp : Breakpoint) : String :=
  if bp.hardware ∧ bp.condition = some "rw" then
    "awatch *(int" ++ decimal (bp.length * 8) ++ "_t *) " ++ toHex bp.address
  else if bp.hardware ∧ bp.condition = some "w" then
    "watch *(int" ++ decimal (bp.length * 8) ++ "_t *) " ++ toHex bp.address
  else if bp.hardware then
    "hb *" ++ hex bp.address
  else
    "b *" ++ hex bp.address

/-- The body of the loop over the breakpoints; the instruction pointer is that of `threads[0]`. -/
def bpArgs (instructionPointer : Nat) (bp : Breakpoint) : List String :=
  if bp.enabled then
    ["-ex", breakpointCommand bp] ++
      -- one more instruction, behind the breakpoint
      if instructionPointer = bp.address ∧ ¬ bp.hardware then ["-ex", "ni"] else []
  else []

/-- `_craft_gdb_migration_command`, with the location of the script by which GDB returns -/
def craftGdbMigrationCommand (gdbGobackLocation : String) (processId : Int)
    (instructionPointer : Nat) (breakpoints : List Breakpoint) : List String :=
  ["/bin/gdb", "-q", "--pid", String.ofList (toDecimal processId), "-ex",
    "source " ++ gdbGobackLocation, "-ex", "ni", "-ex", "ni"] ++
  breakpoints.flatMap (bpArgs instructionPointer)

/-! ### What GDB reads -/

/-- The commands of a command line; `--pid` has an argument as well. -/
def exCommands : List String → List String
  | [] => []
  | [_] => []
  | option :: argument :: rest =>
      if option = "-ex" then argument :: exCommands rest
      else if option = "--pid" then exCommands rest
      else exCommands (argument :: rest)

/-- `0x` in front of hexadecimal digits, or decimal digits -/
def readNumber (chars : List Char) : Option Nat :=
  match "0x".toList.isPrefixOf? chars with
  | some digits =>
      if digits ≠ [] ∧ digits.all fun c => (hexDigit? c).isSome then some (ofHexDigits digits)
      else none
  | none =>
      if chars ≠ [] ∧ chars.all Char.isDigit then some (Nat.ofDigitChars 10 chars 0) else none

/-- The kinds of breakpoints, with the bits that a watchpoint looks at -/
inductive Kind where
  | b
  | hb
  | watch (bits : Nat)
  | awatch (bits : Nat)
  deriving DecidableEq

/-- `*(int…_t *) …`: the bits, and the address as far as it can be read -/
def readWatched (chars : List Char) : Option (Nat × Option Nat) := do
  let typed ← "*(int".toList.isPrefixOf? chars
  let operand ← "_t *) ".toList.isPrefixOf? (typed.dropWhile Char.isDigit)
  pure (Nat.ofDigitChars 10 (typed.takeWhile Char.isDigit) 0, readNumber operand)

/-- The breakpoint of a command, if it is the command of one -/
def readCommand (command : String) : Option (Kind × Option Nat) :=
  match "b *".toList.isPrefixOf? command.toList with
  | some operand => some (.b, readNumber operand)
  | none =>
    match "hb *".toList.isPrefixOf? command.toList with
    | some operand => some (.hb, readNumber operand)
    | none =>
      match "watch ".toList.isPrefixOf? command.toList with
      | some operand => (readWatched operand).map fun read => (.watch read.1, read.2)
      | none =>
        match "awatch ".toList.isPrefixOf? command.toList with
        | some operand => (readWatched operand).map fun read => (.awatch read.1, read.2)
        | none => none

/-- The breakpoints that GDB sets -/
def breakpointsRead (arguments : List String) : List (Kind × Option Nat) :=
  (exCommands arguments).filterMap readCommand

/-! ### The breakpoints there are -/

/-- The kind of a breakpoint -/
def kindOf (bp : Breakpoint) : Kind :=
  if bp.hardware then
    match bp.condition with
    | some "rw" => .awatch (bp.length * 8)
    | some "w" => .watch (bp.length * 8)
    | _ => .hb
  else .b

/-- A hardware breakpoint that watches memory -/
def Watches (bp : Breakpoint) : Prop :=
  bp.hardware = true ∧ (bp.condition = some "rw" ∨ bp.condition = some "w")

instance (bp : Breakpoint) : Decidable (Watches bp) := inferInstanceAs (Decidable (_ ∧ _))

variable {bp : Breakpoint} {n : Nat}

/-! ### Numbers -/

/-- The front of a text is cut off exactly if the text begins with it. -/
theorem isPrefixOf?_eq_some {front chars rest : List Char} :
    front.isPrefixOf? chars = some rest ↔ chars = front ++ rest := by
  induction front generalizing chars with
  | nil => simp [List.isPrefixOf?]
  | cons c front ih =>
      cases chars with
      | nil => simp [List.isPrefixOf?]
      | cons d chars =>
          by_cases same : c = d
          · simp [List.isPrefixOf?, same, ih]
          · simp [List.isPrefixOf?, same, Ne.symm same]

theorem isPrefixOf?_append (front rest : List Char) :
    front.isPrefixOf? (front ++ rest) = some rest := isPrefixOf?_eq_some.mpr rfl

theorem toList_toHex (n : Nat) : (toHex n).toList = Nat.toDigits 16 n := String.toList_ofList

/-- What `hex()` writes is read back. -/
theorem readNumber_hex (n : Nat) : readNumber (hex n).toList = some n := by
  have digits : Nat.toDigits 16 n ≠ [] ∧
      (Nat.toDigits 16 n).all (fun c => (hexDigit? c).isSome) = true := by
    constructor
    · exact Nat.toDigits_ne_nil
    · rw [List.all_eq_true]
      intro c member
      obtain ⟨d, digit⟩ := isDigitOf_of_mem c member
      rw [digit.value, Option.isSome_some]
  rw [hex, String.toList_append, toList_toHex, readNumber, isPrefixOf?_append]
  simp only [if_pos digits, ofHexDigits_toDigits]

/-- No hexadecimal digits are taken for the prefix. -/
theorem isPrefixOf?_toDigits (n : Nat) : "0x".toList.isPrefixOf? (Nat.toDigits 16 n) = none := by
  cases split : "0x".toList.isPrefixOf? (Nat.toDigits 16 n) with
  | none => rfl
  | some rest =>
      have member : 'x' ∈ Nat.toDigits 16 n := by
        rw [isPrefixOf?_eq_some.mp split]
        simp
      exact absurd member (not_mem_toDigits (by decide))

/-- **Hexadecimal digits that are also decimal ones are worth less as such**, beyond the first
ten numbers. -/
theorem decimal_of_hexDigits (decimals : ∀ c ∈ Nat.toDigits 16 n, c.isDigit = true) :
    Nat.ofDigitChars 10 (Nat.toDigits 16 n) 0 ≤ n ∧
      (10 ≤ n → Nat.ofDigitChars 10 (Nat.toDigits 16 n) 0 < n) := by
  induction n using toDigits_induction with
  | digit n small =>
      rw [Nat.toDigits_of_lt_base small] at decimals ⊢
      have letters : ∀ n < 16, (Nat.digitChar n).isDigit = true → n < 10 := by decide
      have ten := letters n small (decimals _ (List.mem_singleton_self _))
      rw [Nat.ofDigitChars_cons_digitChar_of_lt_ten ten, Nat.ofDigitChars_nil]
      omega
  | more n large ih =>
      rw [Nat.toDigits_of_base_le (by decide) large] at decimals ⊢
      have letters : ∀ n < 16, (Nat.digitChar n).isDigit = true → n < 10 := by decide
      have ten := letters (n % 16) (Nat.mod_lt n (by decide)) (decimals _ (by simp))
      have before := (ih fun c member => decimals c (List.mem_append_left _ member)).1
      rw [Nat.ofDigitChars_append, Nat.ofDigitChars_cons_digitChar_of_lt_ten ten,
        Nat.ofDigitChars_nil]
      omega

/-- Without the prefix only the first ten numbers are read back. -/
theorem readNumber_toHex_iff (n : Nat) : readNumber (toHex n).toList = some n ↔ n < 10 := by
  rw [toList_toHex, readNumber, isPrefixOf?_toDigits]
  constructor
  · intro read
    by_cases decimals : Nat.toDigits 16 n ≠ [] ∧ (Nat.toDigits 16 n).all Char.isDigit = true
    · rw [if_pos decimals] at read
      have less := decimal_of_hexDigits (List.all_eq_true.mp decimals.2)
      have same := Option.some.inj read
      by_contra large
      exact absurd same (less.2 (Nat.not_lt.mp large)).ne
    · rw [if_neg decimals] at read
      cases read
  · intro small
    have digits : ∀ n < 10, (if Nat.toDigits 16 n ≠ [] ∧
        (Nat.toDigits 16 n).all Char.isDigit = true
      then some (Nat.ofDigitChars 10 (Nat.toDigits 16 n) 0) else none) = some n := by decide
    exact digits n small

/-! ### Commands -/

/-- The address as GDB reads it -/
def readAddress (bp : Breakpoint) : Option Nat :=
  if Watches bp then readNumber (toHex bp.address).toList else some bp.address

theorem readWatched_eq (bits address : Nat) :
    readWatched ("*(int" ++ decimal bits ++ "_t *) " ++ toHex address).toList =
      some (bits, readNumber (toHex address).toList) := by
  have digits : ∀ c ∈ Nat.toDigits 10 bits, c.isDigit = true := isDigit_of_mem_decimal
  have front : ∀ rest, (Nat.toDigits 10 bits ++ '_' :: rest).takeWhile Char.isDigit =
      Nat.toDigits 10 bits := by
    intro rest
    rw [List.takeWhile_append_of_pos digits, List.takeWhile_cons_of_neg (by decide),
      List.append_nil]
  have back : ∀ rest, (Nat.toDigits 10 bits ++ '_' :: rest).dropWhile Char.isDigit =
      '_' :: rest := by
    intro rest
    rw [List.dropWhile_append_of_pos digits, List.dropWhile_cons_of_neg (by decide)]
  have typed : "*(int".toList.isPrefixOf?
      ("*(int" ++ decimal bits ++ "_t *) " ++ toHex address).toList =
        some (Nat.toDigits 10 bits ++ '_' :: ("t *) ".toList ++ (toHex address).toList)) := by
    rw [isPrefixOf?_eq_some]
    simp [decimal]
  have operand : "_t *) ".toList.isPrefixOf?
      ('_' :: ("t *) ".toList ++ (toHex address).toList)) = some (toHex address).toList := by
    rw [isPrefixOf?_eq_some]
    simp
  rw [readWatched, typed]
  simp only [Option.bind_eq_bind, Option.bind_some, front, back, operand,
    Nat.ofDigitChars_ten_toDigits]
  rfl

theorem readCommand_b (operand : String) :
    readCommand ("b *" ++ operand) = some (.b, readNumber operand.toList) := by
  simp only [readCommand, String.toList_append, isPrefixOf?_append]

theorem readCommand_hb (operand : String) :
    readCommand ("hb *" ++ operand) = some (.hb, readNumber operand.toList) := by
  have other : "b *".toList.isPrefixOf? ("hb *".toList ++ operand.toList) = none := rfl
  simp only [readCommand, String.toList_append, other, isPrefixOf?_append]

theorem readCommand_watch (operand : String) : readCommand ("watch " ++ operand) =
    (readWatched operand.toList).map fun read => (.watch read.1, read.2) := by
  have other : "b *".toList.isPrefixOf? ("watch ".toList ++ operand.toList) = none ∧
      "hb *".toList.isPrefixOf? ("watch ".toList ++ operand.toList) = none := ⟨rfl, rfl⟩
  simp only [readCommand, String.toList_append, other.1, other.2, isPrefixOf?_append]

theorem readCommand_awatch (operand : String) : readCommand ("awatch " ++ operand) =
    (readWatched operand.toList).map fun read => (.awatch read.1, read.2) := by
  have other : "b *".toList.isPrefixOf? ("awatch ".toList ++ operand.toList) = none ∧
      "hb *".toList.isPrefixOf? ("awatch ".toList ++ operand.toList) = none ∧
      "watch ".toList.isPrefixOf? ("awatch ".toList ++ operand.toList) = none := ⟨rfl, rfl, rfl⟩
  simp only [readCommand, String.toList_append, other.1, other.2.1, other.2.2, isPrefixOf?_append]

/-- The command of a breakpoint is read as one of its kind. -/
theorem readCommand_breakpointCommand (bp : Breakpoint) :
    readCommand (breakpointCommand bp) = some (kindOf bp, readAddress bp) := by
  unfold breakpointCommand kindOf readAddress Watches
  by_cases hardware : bp.hardware = true
  · by_cases access : bp.condition = some "rw"
    · have parts : "awatch *(int" = "awatch " ++ "*(int" := by decide
      simp only [hardware, access, and_self, true_or, if_true, parts, String.append_assoc,
        readCommand_awatch]
      rw [← String.append_assoc, ← String.append_assoc, readWatched_eq]
      rfl
    · by_cases write : bp.condition = some "w"
      · have parts : "watch *(int" = "watch " ++ "*(int" := by decide
        have other : ¬ (some "w" = some "rw") := by decide
        simp only [hardware, write, other, and_self, and_false, or_true, if_true, if_false, parts,
          String.append_assoc, readCommand_watch]
        rw [← String.append_assoc, ← String.append_assoc, readWatched_eq]
        rfl
      · simp only [hardware, access, write, and_false, or_self, if_true, if_false,
          readCommand_hb, readNumber_hex]
  · simp only [hardware, Bool.false_eq_true, false_and, if_false, readCommand_b, readNumber_hex]

/-! ### The whole command line -/

/-- The commands that stand for a breakpoint -/
def commandsOf (instructionPointer : Nat) (bp : Breakpoint) : List String :=
  if bp.enabled then
    breakpointCommand bp ::
      if instructionPointer = bp.address ∧ ¬ bp.hardware then ["ni"] else []
  else []

theorem exCommands_bpArgs (instructionPointer : Nat) (bp : Breakpoint) (rest : List String) :
    exCommands (bpArgs instructionPointer bp ++ rest) =
      commandsOf instructionPointer bp ++ exCommands rest := by
  have ex (argument : String) (later : List String) :
      exCommands ("-ex" :: argument :: later) = argument :: exCommands later := if_pos rfl
  unfold bpArgs commandsOf
  split
  · split
    · simp only [List.cons_append, List.nil_append, ex]
    · simp only [List.cons_append, List.nil_append, List.append_nil, ex]
  · rfl

theorem breakpointsRead_bpArgs (instructionPointer : Nat) (breakpoints : List Breakpoint) :
    breakpointsRead (breakpoints.flatMap (bpArgs instructionPointer)) =
      (breakpoints.filter (·.enabled)).map fun bp => (kindOf bp, readAddress bp) := by
  have next : readCommand "ni" = none := by decide
  induction breakpoints with
  | nil => rfl
  | cons bp later ih =>
      have here : (commandsOf instructionPointer bp).filterMap readCommand =
          if bp.enabled then [(kindOf bp, readAddress bp)] else [] := by
        unfold commandsOf
        split
        · split
          · simp [readCommand_breakpointCommand, next]
          · simp [readCommand_breakpointCommand]
        · rfl
      unfold breakpointsRead at ih ⊢
      rw [List.flatMap_cons, exCommands_bpArgs, List.filterMap_append, here, ih, List.filter_cons]
      split <;> rfl

/-- What stands in front of the breakpoints sets none. -/
theorem breakpointsRead_craft (gdbGobackLocation : String) (processId : Int)
    (instructionPointer : Nat) (breakpoints : List Breakpoint) :
    breakpointsRead (craftGdbMigrationCommand gdbGobackLocation processId instructionPointer
        breakpoints) =
      (breakpoints.filter (·.enabled)).map fun bp => (kindOf bp, readAddress bp) := by
  have source : readCommand ("source " ++ gdbGobackLocation) = none := by
    simp only [readCommand, String.toList_append]
    rfl
  have next : readCommand "ni" = none := by decide
  have front (rest : List String) : exCommands (["/bin/gdb", "-q", "--pid",
      String.ofList (toDecimal processId), "-ex", "source " ++ gdbGobackLocation, "-ex", "ni",
        "-ex", "ni"] ++ rest) = ("source " ++ gdbGobackLocation) :: "ni" :: "ni" ::
          exCommands rest := rfl
  rw [← breakpointsRead_bpArgs instructionPointer, craftGdbMigrationCommand, breakpointsRead, front]
  simp only [List.filterMap_cons, source, next]
  rfl

/-- **GDB is told of every enabled breakpoint once and of no other**, by a command of its kind;
the addresses are the ones of the breakpoints exactly if no enabled watchpoint is beyond the
first ten. -/
theorem migration_keeps_breakpoints_iff (gdbGobackLocation : String) (processId : Int)
    (instructionPointer : Nat) (breakpoints : List Breakpoint) :
    (breakpointsRead (craftGdbMigrationCommand gdbGobackLocation processId instructionPointer
        breakpoints) =
      (breakpoints.filter (·.enabled)).map fun bp => (kindOf bp, some bp.address)) ↔
    ∀ bp ∈ breakpoints, bp.enabled = true → Watches bp → bp.address < 10 := by
  rw [breakpointsRead_craft, List.map_inj_left]
  constructor
  · intro same bp member enabled watches
    have address := congrArg Prod.snd (same bp (List.mem_filter.mpr ⟨member, enabled⟩))
    rw [readAddress, if_pos watches] at address
    exact (readNumber_toHex_iff bp.address).mp address
  · intro small bp member
    obtain ⟨listed, enabled⟩ := List.mem_filter.mp member
    rw [readAddress]
    split
    · have watches : Watches bp := ‹_›
      rw [(readNumber_toHex_iff bp.address).mpr (small bp listed enabled watches)]
    · rfl

/-- A watchpoint at `0x404010`: GDB reads the decimal number `404010`. -/
theorem watchpoint_moves :
    breakpointsRead (craftGdbMigrationCommand "gdb.py" 1 0
        [{ address := 0x404010, hardware := true, condition := some "w", length := 8 }]) =
      [(.watch 64, some 404010)] ∧
    ¬ ∀ (gdbGobackLocation : String) (processId : Int) (instructionPointer : Nat)
      (breakpoints : List Breakpoint),
      breakpointsRead (craftGdbMigrationCommand gdbGobackLocation processId instructionPointer
          breakpoints) =
        (breakpoints.filter (·.enabled)).map fun bp => (kindOf bp, some bp.address) := by
  have moved : breakpointsRead (craftGdbMigrationCommand "gdb.py" 1 0
      [{ address := 0x404010, hardware := true, condition := some "w", length := 8 }]) =
        [(.watch 64, some 404010)] := by decide
  refine ⟨moved, ?_⟩
  intro keeps
  have kept := keeps "gdb.py" 1 0
    [{ address := 0x404010, hardware := true, condition := some "w", length := 8 }]
  rw [moved] at kept
  exact absurd kept (by decide)

end Libdebug.InternalDebugger.GdbMigration
