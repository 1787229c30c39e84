import Mathlib.Data.List.TakeWhile

/-!
Numbers in base 16 as Python writes them, `f"{n:x}"`, and as it reads them, `int(text, 16)`;
and numbers in base 10, `str(n)`, as C reads them, `strtol(text, NULL, 10)`. What is written is
read back.
-/

namespace Libdebug.Foundation

/-- `f"{n:x}"` -/
def toHex (n : Nat) : String := String.ofList (Nat.toDigits 16 n)

/-- The zeros of the decimal digits outside ASCII; the digits of a script follow its zero. -/
def decimalZeros : List Nat :=
  [0x660, 0x6f0, 0x7c0, 0x966, 0x9e6, 0xa66, 0xae6, 0xb66, 0xbe6, 0xc66, 0xce6, 0xd66, 0xde6,
    0xe50, 0xed0, 0xf20, 0x1040, 0x1090, 0x17e0, 0x1810, 0x1946, 0x19d0, 0x1a80, 0x1a90, 0x1b50,
    0x1bb0, 0x1c40, 0x1c50, 0xa620, 0xa8d0, 0xa900, 0xa9d0, 0xa9f0, 0xaa50, 0xabf0, 0xff10,
    0x104a0, 0x10d30, 0x11066, 0x110f0, 0x11136, 0x111d0, 0x112f0, 0x11450, 0x114d0, 0x11650,
    0x116c0, 0x11730, 0x118e0, 0x11950, 0x11c50, 0x11d50, 0x11da0, 0x16a60, 0x16ac0, 0x16b50,
    0x1d7ce, 0x1d7d8, 0x1d7e2, 0x1d7ec, 0x1d7f6, 0x1e140, 0x1e2f0, 0x1e950, 0x1fbf0]

/-- The spaces outside ASCII -/
def wideSpaces : List Nat :=
  [0x85, 0xa0, 0x1680, 0x2000, 0x2001, 0x2002, 0x2003, 0x2004, 0x2005, 0x2006, 0x2007, 0x2008,
    0x2009, 0x200a, 0x2028, 0x2029, 0x202f, 0x205f, 0x3000]

/-- Spaces and decimal digits of other scripts count as those of ASCII. -/
def toAscii (c : Char) : Char :=
  if c.toNat < 128 then
    c
  else if c.toNat ∈ wideSpaces then
    ' '
  else
    match decimalZeros.find? fun first => first ≤ c.toNat ∧ c.toNat < first + 10 with
    | some first => Nat.digitChar (c.toNat - first)
    | none => '?'

/-- Tabulators, line ends and the space -/
def isBlank (c : Char) : Bool := c.toNat = 32 ∨ 9 ≤ c.toNat ∧ c.toNat ≤ 13

def hexDigit? (c : Char) : Option Nat :=
  if '0' ≤ c ∧ c ≤ '9' then
    some (c.toNat - 48)
  else if 'a' ≤ c ∧ c ≤ 'f' then
    some (c.toNat - 87)
  else if 'A' ≤ c ∧ c ≤ 'F' then
    some (c.toNat - 55)
  else
    none

/-- Whether there is a minus sign, and what follows the sign if there is one -/
def splitSign : List Char → Bool × List Char
  | '+' :: rest => (false, rest)
  | '-' :: rest => (true, rest)
  | chars => (false, chars)

/-- What follows the prefix `0x` if there is one; it may end in an underscore. -/
def dropHexPrefix : List Char → List Char
  | '0' :: c :: rest =>
      if c = 'x' ∨ c = 'X' then
        match rest with
        | '_' :: rest => rest
        | _ => rest
      else
        '0' :: c :: rest
  | chars => chars

def ofHexDigits (digits : List Char) : Nat :=
  digits.foldl (fun n c => 16 * n + (hexDigit? c).getD 0) 0

/-- The digits at the front, with single underscores between them; only blanks may follow. -/
def readHexDigits (chars : List Char) : Option Nat :=
  let isDigit := fun c => (hexDigit? c).isSome || c == '_'
  let groups := (chars.takeWhile isDigit).splitOn '_'
  if [] ∉ groups ∧ (chars.dropWhile isDigit).all isBlank then
    some (ofHexDigits groups.flatten)
  else
    none

/-- `int(text, 16)`; it raises `ValueError` where there is no result. -/
def readHex (text : String) : Option Int :=
  let (negative, chars) := splitSign ((text.toList.map toAscii).dropWhile isBlank)
  (readHexDigits (dropHexPrefix chars)).map fun n => if negative then -n else n

/-! ### Reading what was written -/

variable {n : Nat} {c : Char}

/-- A digit stands for itself, and is taken for nothing else. -/
structure IsDigitOf (n : Nat) (c : Char) : Prop where
  value : hexDigit? c = some n
  ascii : toAscii c = c
  notBlank : isBlank c = false
  notSign : c ≠ '+' ∧ c ≠ '-'
  notMark : c ≠ 'x' ∧ c ≠ 'X' ∧ c ≠ '_'

theorem isDigitOf_digitChar (small : n < 16) : IsDigitOf n (Nat.digitChar n) := by
  have values : ∀ n < 16, hexDigit? (Nat.digitChar n) = some n := by decide
  have ascii : ∀ n < 16, toAscii (Nat.digitChar n) = Nat.digitChar n := by decide
  have blanks : ∀ n < 16, isBlank (Nat.digitChar n) = false := by decide
  have signs : ∀ n < 16, Nat.digitChar n ≠ '+' ∧ Nat.digitChar n ≠ '-' := by decide
  have marks : ∀ n < 16,
      Nat.digitChar n ≠ 'x' ∧ Nat.digitChar n ≠ 'X' ∧ Nat.digitChar n ≠ '_' := by decide
  exact ⟨values n small, ascii n small, blanks n small, signs n small, marks n small⟩

/-- The induction along the digits of a number, the last one first -/
theorem toDigits_induction {motive : Nat → Prop}
    (digit : ∀ n < 16, motive n)
    (more : ∀ n, 16 ≤ n → motive (n / 16) → motive n) (n : Nat) : motive n := by
  induction n using Nat.strongRecOn with
  | ind n ih =>
      rcases Nat.lt_or_ge n 16 with small | large
      · exact digit n small
      · exact more n large (ih (n / 16) (Nat.div_lt_self (by omega) (by decide)))

theorem isDigitOf_of_mem : ∀ c ∈ Nat.toDigits 16 n, ∃ d, IsDigitOf d c := by
  induction n using toDigits_induction with
  | digit n small =>
      intro c member
      rw [Nat.toDigits_of_lt_base small, List.mem_singleton] at member
      exact ⟨n, member ▸ isDigitOf_digitChar small⟩
  | more n large ih =>
      intro c member
      rw [Nat.toDigits_of_base_le (by decide) large, List.mem_append,
        List.mem_singleton] at member
      rcases member with before | rfl
      · exact ih c before
      · exact ⟨n % 16, isDigitOf_digitChar (Nat.mod_lt n (by decide))⟩

theorem ofHexDigits_toDigits : ofHexDigits (Nat.toDigits 16 n) = n := by
  induction n using toDigits_induction with
  | digit n small =>
      rw [Nat.toDigits_of_lt_base small]
      simp [ofHexDigits, (isDigitOf_digitChar small).value]
  | more n large ih =>
      have last := (isDigitOf_digitChar (Nat.mod_lt n (show 16 > 0 by decide))).value
      rw [Nat.toDigits_of_base_le (by decide) large, ofHexDigits, List.foldl_append]
      unfold ofHexDigits at ih
      rw [ih, List.foldl_cons, List.foldl_nil, last, Option.getD_some]
      exact Nat.div_add_mod n 16

/-- A separator that is no digit does not occur in a number. -/
theorem not_mem_toDigits (other : hexDigit? c = none) : c ∉ Nat.toDigits 16 n := by
  intro member
  obtain ⟨d, digit⟩ := isDigitOf_of_mem c member
  cases digit.value.symm.trans other

/-- Digits are read as the number that they make up. -/
theorem readHexDigits_of_digits {chars : List Char} (some : chars ≠ [])
    (digits : ∀ c ∈ chars, ∃ d, IsDigitOf d c) :
    readHexDigits chars = .some (ofHexDigits chars) := by
  have isDigit : ∀ c ∈ chars, ((hexDigit? c).isSome || c == '_') = true := by
    intro c member
    obtain ⟨d, digit⟩ := digits c member
    rw [digit.value]
    rfl
  have all : chars.takeWhile (fun c => (hexDigit? c).isSome || c == '_') = chars :=
    List.takeWhile_eq_self_iff.mpr isDigit
  have nothing : chars.dropWhile (fun c => (hexDigit? c).isSome || c == '_') = [] :=
    List.dropWhile_eq_nil_iff.mpr isDigit
  have noMark : '_' ∉ chars := by
    intro member
    obtain ⟨d, digit⟩ := digits _ member
    exact digit.notMark.2.2 rfl
  have single : chars.splitOn '_' = [chars] := List.splitOn_eq_singleton noMark
  unfold readHexDigits
  simp only [all, nothing, single, List.mem_singleton, some.symm, not_false_iff, List.all_nil,
    and_self, if_true, List.flatten_cons, List.flatten_nil, List.append_nil]

theorem dropHexPrefix_of_digits {chars : List Char} (digits : ∀ c ∈ chars, c ≠ 'x' ∧ c ≠ 'X') :
    dropHexPrefix chars = chars := by
  unfold dropHexPrefix
  split
  · rename_i c rest
    obtain ⟨small, capital⟩ := digits c (by simp)
    rw [if_neg (by simp [small, capital])]
  · rfl

theorem readHex_of_digits {chars : List Char} (some : chars ≠ [])
    (digits : ∀ c ∈ chars, ∃ d, IsDigitOf d c) :
    readHex (String.ofList chars) = .some (ofHexDigits chars : Int) := by
  have ascii : chars.map toAscii = chars := by
    conv => rhs; rw [← List.map_id chars]
    apply List.map_congr_left
    intro c member
    obtain ⟨d, digit⟩ := digits c member
    exact digit.ascii
  have bare : dropHexPrefix chars = chars := by
    apply dropHexPrefix_of_digits
    intro c member
    obtain ⟨d, digit⟩ := digits c member
    exact ⟨digit.notMark.1, digit.notMark.2.1⟩
  obtain ⟨first, rest, front⟩ := List.exists_cons_of_ne_nil some
  obtain ⟨d, digit⟩ := digits first (front ▸ List.mem_cons_self)
  have begins : chars.dropWhile isBlank = chars := by
    rw [front, List.dropWhile_cons_of_neg (by simp [digit.notBlank])]
  have unsigned : splitSign chars = (false, chars) := by
    rw [front]
    unfold splitSign
    split
    · rename_i same
      exact absurd (List.cons.inj same).1 digit.notSign.1
    · rename_i same
      exact absurd (List.cons.inj same).1 digit.notSign.2
    · rfl
  unfold readHex
  rw [String.toList_ofList, ascii, begins, unsigned]
  simp only [bare, readHexDigits_of_digits some digits]
  rfl

/-- What is written is read back. -/
theorem readHex_toHex (n : Nat) : readHex (toHex n) = some (n : Int) := by
  have read := readHex_of_digits Nat.toDigits_ne_nil (isDigitOf_of_mem (n := n))
  rwa [ofHexDigits_toDigits] at read

/-! ### Numbers of a fixed width -/

/-- `"%0*lx"`: zeros in front up to the width -/
def padHex (width n : Nat) : List Char := (Nat.toDigits 16 n).leftpad width '0'

theorem isDigitOf_of_mem_padHex {width : Nat} : ∀ c ∈ padHex width n, ∃ d, IsDigitOf d c := by
  intro c member
  rw [padHex, List.leftpad, List.mem_append] at member
  rcases member with zero | digit
  · exact ⟨0, (List.mem_replicate.mp zero).2 ▸ isDigitOf_digitChar (by decide)⟩
  · exact isDigitOf_of_mem c digit

theorem ofHexDigits_padHex (width n : Nat) : ofHexDigits (padHex width n) = n := by
  have zeros (count : Nat) : (List.replicate count '0').foldl
      (fun n c => 16 * n + (hexDigit? c).getD 0) 0 = 0 := by
    induction count with
    | zero => rfl
    | succ count ih => exact ih
  rw [padHex, List.leftpad, ofHexDigits, List.foldl_append, zeros]
  exact ofHexDigits_toDigits

theorem padHex_ne_nil (width n : Nat) : padHex width n ≠ [] := by
  intro empty
  exact Nat.toDigits_ne_nil (List.append_eq_nil_iff.mp empty).2

/-- The zeros in front do not matter. -/
theorem readHex_padHex (width n : Nat) :
    readHex (String.ofList (padHex width n)) = some (n : Int) := by
  rw [readHex_of_digits (padHex_ne_nil width n) isDigitOf_of_mem_padHex, ofHexDigits_padHex]

theorem not_mem_padHex {width : Nat} (other : hexDigit? c = none) : c ∉ padHex width n := by
  intro member
  obtain ⟨d, digit⟩ := isDigitOf_of_mem_padHex c member
  cases digit.value.symm.trans other

theorem toHex_injective : Function.Injective toHex := by
  intro m n same
  have read := congrArg readHex same
  rw [readHex_toHex, readHex_toHex] at read
  exact Int.ofNat.inj (Option.some.inj read)

example : readHex " +0x_1_F" = some 31 := by decide

/-! ### Base 10 -/

/-- `str(n)` -/
def toDecimal : Int → List Char
  | .ofNat n => Nat.toDigits 10 n
  | .negSucc n => '-' :: Nat.toDigits 10 (n + 1)

/-- `strtol(text, NULL, 10)`, whatever the width of its result: the digits at the front -/
def readDecimal (chars : List Char) : Int :=
  let (negative, chars) := splitSign (chars.dropWhile isBlank)
  let n := Nat.ofDigitChars 10 (chars.takeWhile Char.isDigit) 0
  if negative then -n else n

theorem isDigit_of_mem_decimal : ∀ c ∈ Nat.toDigits 10 n, c.isDigit = true := fun _ =>
  Nat.isDigit_of_mem_toDigits (by decide) (by decide)

theorem takeWhile_decimal : (Nat.toDigits 10 n).takeWhile Char.isDigit = Nat.toDigits 10 n :=
  List.takeWhile_eq_self_iff.mpr isDigit_of_mem_decimal

/-- What does not begin with a sign or a blank -/
theorem readDecimal_of_digits {rest : List Char} (digit : c.isDigit = true) :
    readDecimal (c :: rest) = Nat.ofDigitChars 10 ((c :: rest).takeWhile Char.isDigit) 0 := by
  have bounds : 48 ≤ c.toNat ∧ c.toNat ≤ 57 := by
    simpa [Char.isDigit, UInt32.le_iff_toNat_le] using digit
  have visible : isBlank c = false := by
    rw [isBlank, decide_eq_false_iff_not]
    omega
  have unsigned : splitSign (c :: rest) = (false, c :: rest) := by
    unfold splitSign
    split
    · rename_i same
      cases (List.cons.inj same).1
      exact absurd bounds (by decide)
    · rename_i same
      cases (List.cons.inj same).1
      exact absurd bounds (by decide)
    · rfl
  rw [readDecimal, List.dropWhile_cons_of_neg (by simp [visible]), unsigned]
  rfl

theorem readDecimal_toDecimal (number : Int) : readDecimal (toDecimal number) = number := by
  cases number with
  | ofNat n =>
      obtain ⟨first, rest, front⟩ :=
        List.exists_cons_of_ne_nil (Nat.toDigits_ne_nil (n := n) (b := 10))
      have digit : first.isDigit = true :=
        isDigit_of_mem_decimal (n := n) first (front ▸ List.mem_cons_self)
      rw [toDecimal, front, readDecimal_of_digits digit, ← front, takeWhile_decimal,
        Nat.ofDigitChars_toDigits (by decide) (by decide)]
      rfl
  | negSucc n =>
      have visible : isBlank '-' = false := by decide
      rw [toDecimal, readDecimal, List.dropWhile_cons_of_neg (by simp [visible])]
      simp only [splitSign, if_true, takeWhile_decimal,
        Nat.ofDigitChars_toDigits (b := 10) (by decide) (by decide)]
      rfl

end Libdebug.Foundation
