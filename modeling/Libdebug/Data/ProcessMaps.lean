import Libdebug.Foundation.Numerals
import Libdebug.Foundation.Splitting

/-!
`MemoryMap.parse` and the lines of `/proc/pid/maps`. A line is split at single spaces, at the
first six only: the padding in front of the path holds two of them at least, and the rest of it
goes with the blank ends of the path, whose own spaces are not looked at.
-/

namespace Libdebug.Data.ProcessMaps

open Libdebug.Foundation

structure MemoryMap where
  start : Int := 0
  end_ : Int := 0
  permissions : String := ""
  size : Int := 0
  /-- the offset of the map inside the backing file, if any -/
  offset : Int := 0
  /-- the backing file, such as `libc.so.6`, or a symbolic name, such as `[stack]` -/
  backingFile : String := ""
  deriving DecidableEq

inductive ParseError where
  | valueError (message : String)
  | indexError
  deriving DecidableEq

/-- `f"{n:x}"` -/
def formatHex : Int → String
  | .ofNat n => toHex n
  | .negSucc n => "-" ++ toHex (n + 1)

/-- `str.isspace` -/
def isSpace (c : Char) : Bool := isBlank c ∨ 28 ≤ c.toNat ∧ c.toNat ≤ 31 ∨ c.toNat ∈ wideSpaces

/-- `raise ValueError(...) from e` -/
def invalidMap (vmap : String) : ParseError :=
  .valueError s!"Invalid memory map: {vmap}. Please specify a valid memory map."

/-- `int(text, 16)`, and what becomes of its error -/
def parseHex (vmap : String) (text : List Char) : Except ParseError Int :=
  match readHex (String.ofList text) with
  | some n => pure n
  | none => throw (invalidMap vmap)

/-- `address, permissions, offset, *_, backing_file = parts` -/
def unpack (vmap : String) :
    List (List Char) → Except ParseError (List Char × List Char × List Char × List Char)
  | address :: permissions :: offset :: more =>
      match more.getLast? with
      | some backingFile => pure (address, permissions, offset, backingFile)
      | none => throw (invalidMap vmap)
  | _ => throw (invalidMap vmap)

/-- An index into the parts of the address; its error is not a `ValueError`. -/
def boundary (bounds : List (List Char)) (index : Nat) : Except ParseError (List Char) :=
  match bounds[index]? with
  | some bound => pure bound
  | none => throw .indexError

def parse (vmap : String) : Except ParseError MemoryMap := do
  let (address, permissions, offset, backingFile) ← unpack vmap (splitAtMost ' ' 6 vmap.toList)
  let start ← parseHex vmap (← boundary (address.splitOn '-') 0)
  let end_ ← parseHex vmap (← boundary (address.splitOn '-') 1)
  let intOffset ← parseHex vmap offset
  let stripped := strip isSpace backingFile
  pure {
    start
    end_
    permissions := String.ofList permissions
    size := end_ - start
    offset := intOffset
    backingFile := if stripped = [] then "anon_" ++ formatHex start else String.ofList stripped }

/-- `get_process_maps`, given the lines of the file -/
def getProcessMaps (lines : List String) : Except ParseError (List MemoryMap) := lines.mapM parse

/-! ### What the kernel writes -/

/-- The fields of a line up to the inode -/
structure Mapping where
  start : Nat
  end_ : Nat
  permissions : String
  offset : Nat
  device : String
  inode : Nat
  /-- the fields are told apart by the spaces between them -/
  noSpace : ' ' ∉ permissions.toList ∧ ' ' ∉ device.toList

/-- `"%08lx-%08lx %s %08lx %s %lu"` -/
def Mapping.fields (mapping : Mapping) : List (List Char) :=
  [padHex 8 mapping.start ++ '-' :: padHex 8 mapping.end_, mapping.permissions.toList,
    padHex 8 mapping.offset, mapping.device.toList, Nat.toDigits 10 mapping.inode]

/-- A line of a mapping with a path, `padding` spaces behind the inode -/
def Mapping.line (mapping : Mapping) (padding : Nat) (path : String) : String :=
  String.ofList
    ([' '].intercalate mapping.fields ++ List.replicate padding ' ' ++ path.toList ++ ['\n'])

/-- A line of a mapping without one -/
def Mapping.anonymousLine (mapping : Mapping) : String :=
  String.ofList ([' '].intercalate mapping.fields ++ [' ', '\n'])

/-- What is made of either -/
def Mapping.parsed (mapping : Mapping) (backingFile : String) : MemoryMap where
  start := mapping.start
  end_ := mapping.end_
  permissions := mapping.permissions
  size := (mapping.end_ : Int) - mapping.start
  offset := mapping.offset
  backingFile

/-- A path may hold spaces, but not at its ends. -/
structure PathText (path : String) : Prop where
  notEmpty : path ≠ ""
  noNewline : '\n' ∉ path.toList
  first : ∀ c ∈ path.toList.head?, isSpace c = false
  last : ∀ c ∈ path.toList.getLast?, isSpace c = false

section Parsing

variable {mapping : Mapping} {path : String} {padding : Nat}

/-- No field of a line holds a space. -/
theorem fields_noSpace (mapping : Mapping) : ∀ field ∈ mapping.fields, ' ' ∉ field := by
  intro field member space
  simp only [Mapping.fields, List.mem_cons, List.not_mem_nil, or_false] at member
  rcases member with rfl | rfl | rfl | rfl | rfl
  · rcases List.mem_append.mp space with inStart | inEnd
    · exact not_mem_padHex (by decide) inStart
    · rcases List.mem_cons.mp inEnd with hyphen | inEnd
      · cases hyphen
      · exact not_mem_padHex (by decide) inEnd
  · exact mapping.noSpace.1 space
  · exact not_mem_padHex (by decide) space
  · exact mapping.noSpace.2 space
  · have digit := Nat.isDigit_of_mem_toDigits (by decide) (by decide) space
    cases digit

/-- What a line is made of, given what its last part strips to -/
theorem parse_of_parts {vmap : String} {rest : List (List Char)} {last stripped : List Char}
    (parts : splitAtMost ' ' 6 vmap.toList = mapping.fields ++ rest)
    (final : rest.getLast? = some last) (strips : strip isSpace last = stripped) :
    parse vmap = .ok (mapping.parsed
      (if stripped = [] then "anon_" ++ toHex mapping.start else String.ofList stripped)) := by
  have bounds : (padHex 8 mapping.start ++ '-' :: padHex 8 mapping.end_).splitOn '-' =
      [padHex 8 mapping.start, padHex 8 mapping.end_] := by
    rw [List.splitOn_append_cons_self_of_not_mem (not_mem_padHex (by decide)),
      List.splitOn_eq_singleton (not_mem_padHex (by decide))]
  have unpacked : unpack vmap (mapping.fields ++ rest) =
      pure (padHex 8 mapping.start ++ '-' :: padHex 8 mapping.end_, mapping.permissions.toList,
        padHex 8 mapping.offset, last) := by
    have ending : (mapping.device.toList :: Nat.toDigits 10 mapping.inode :: rest).getLast? =
        some last := by
      rw [List.getLast?_cons, List.getLast?_cons, final]
      rfl
    simp only [Mapping.fields, List.cons_append, List.nil_append, unpack, ending]
  have numeral (n : Nat) : parseHex vmap (padHex 8 n) = pure (n : Int) := by
    rw [parseHex, readHex_padHex]
  have first : boundary [padHex 8 mapping.start, padHex 8 mapping.end_] 0 =
      pure (padHex 8 mapping.start) := rfl
  have second : boundary [padHex 8 mapping.start, padHex 8 mapping.end_] 1 =
      pure (padHex 8 mapping.end_) := rfl
  simp only [parse, parts, unpacked, pure_bind, bounds, first, second, numeral, strips,
    String.ofList_toList]
  rfl

/-- The first two spaces of the padding end the inode and an empty part; the others, and the end
of the line, go with the blank ends of the path. -/
theorem parse_line (two : 2 ≤ padding) (text : PathText path) :
    parse (mapping.line padding path) = .ok (mapping.parsed path) := by
  obtain ⟨extra, rfl⟩ := Nat.exists_eq_add_of_le two
  set padded := List.replicate extra ' ' ++ path.toList ++ ['\n'] with tail
  have shape : (mapping.line (2 + extra) path).toList =
      [' '].intercalate mapping.fields ++ ' ' :: ([] ++ ' ' :: padded) := by
    rw [Mapping.line, String.toList_ofList, Nat.add_comm, List.replicate_succ, List.replicate_succ,
      tail]
    simp only [List.append_assoc, List.cons_append, List.nil_append]
  have parts : splitAtMost ' ' 6 (mapping.line (2 + extra) path).toList =
      mapping.fields ++ [[], padded] := by
    rw [shape]
    refine (splitAtMost_intercalate (n := 1) (by simp [Mapping.fields])
      (fields_noSpace mapping)).trans ?_
    rw [splitAtMost_field List.not_mem_nil]
    rfl
  have strips : strip isSpace padded = path.toList := by
    apply strip_padded _ _ text.first text.last
    · intro c member
      rw [(List.mem_replicate.mp member).2]
      decide
    · intro c member
      rw [List.mem_singleton.mp member]
      decide
  have parsed := parse_of_parts parts rfl strips
  have some : path.toList ≠ [] := fun empty => text.notEmpty (String.toList_eq_nil_iff.mp empty)
  rwa [if_neg some, String.ofList_toList] at parsed

theorem parse_anonymousLine : parse mapping.anonymousLine =
    .ok (mapping.parsed ("anon_" ++ toHex mapping.start)) := by
  have parts : splitAtMost ' ' 6 mapping.anonymousLine.toList = mapping.fields ++ [['\n']] := by
    rw [Mapping.anonymousLine, String.toList_ofList]
    refine (splitAtMost_intercalate (n := 1) (by simp [Mapping.fields])
      (fields_noSpace mapping)).trans ?_
    rw [splitAtMost_of_absent (by decide)]
  have parsed := parse_of_parts parts rfl (strip_of_blank (List.forall_mem_singleton.mpr rfl))
  rwa [if_pos rfl] at parsed

/-- The parser gives back what the kernel has written: the path with all its inner spaces, and a
name of their own for the mappings that have none. -/
theorem parse_inverts :
    (∀ mapping : Mapping, ∀ padding ≥ 2, ∀ path, PathText path →
      parse (mapping.line padding path) = .ok (mapping.parsed path)) ∧
    ∃ anonymous : Nat → String, anonymous.Injective ∧ ∀ mapping : Mapping,
      parse mapping.anonymousLine = .ok (mapping.parsed (anonymous mapping.start)) := by
  refine ⟨fun mapping padding two path text => parse_line two text,
    fun start => "anon_" ++ toHex start, ?_, fun mapping => parse_anonymousLine⟩
  intro a b same
  exact toHex_injective (String.append_right_inj _ |>.mp same)

end Parsing

/-- The text segment of a program -/
def textSegment : Mapping := ⟨0x400000, 0x40b000, "r-xp", 0x1000, "fd:00", 1234, by decide⟩

theorem parse_textSegment : parse (textSegment.line 3 "/tmp/a  b (deleted)") =
    .ok (textSegment.parsed "/tmp/a  b (deleted)") :=
  parse_inverts.1 textSegment 3 (by decide) "/tmp/a  b (deleted)"
    ⟨by decide, by decide, fun _ first => Option.some.inj first ▸ rfl,
      fun _ last => Option.some.inj last ▸ rfl⟩

example : parse "00400000-0040b000 r-xp 00001000 fd:00 1234   /tmp/a  b (deleted)\n" =
    .ok ⟨0x400000, 0x40b000, "r-xp", 0xb000, 0x1000, "/tmp/a  b (deleted)"⟩ := by decide +kernel

end Libdebug.Data.ProcessMaps
