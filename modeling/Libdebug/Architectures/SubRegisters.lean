import Libdebug.Cffi.GlobalState
import Libdebug.Foundation.Dict
import Libdebug.Foundation.Integers
import Mathlib.Logic.Function.Basic

/-!
The accessors that `Amd64PtraceRegisterHolder` puts on the class of the registers, against the
aliases of the architecture. Several names stand for parts of one register; a write through one
of them is seen through the others.
-/

namespace Libdebug.Architectures.SubRegisters

open Libdebug.Cffi Libdebug.Foundation

/-! ### The register file -/

/-- The name of a field of `struct user_regs_struct` -/
def Reg.name : Reg → String
  | .r15 => "r15" | .r14 => "r14" | .r13 => "r13" | .r12 => "r12" | .rbp => "rbp" | .rbx => "rbx"
  | .r11 => "r11" | .r10 => "r10" | .r9 => "r9" | .r8 => "r8" | .rax => "rax" | .rcx => "rcx"
  | .rdx => "rdx" | .rsi => "rsi" | .rdi => "rdi" | .origRax => "orig_rax" | .rip => "rip"
  | .cs => "cs" | .eflags => "eflags" | .rsp => "rsp" | .ss => "ss" | .fsBase => "fs_base"
  | .gsBase => "gs_base" | .ds => "ds" | .es => "es" | .fs => "fs" | .gs => "gs"

/-- The fields, in their order -/
def userRegs : List Reg :=
  [.r15, .r14, .r13, .r12, .rbp, .rbx, .r11, .r10, .r9, .r8, .rax, .rcx, .rdx, .rsi, .rdi,
    .origRax, .rip, .cs, .eflags, .rsp, .ss, .fsBase, .gsBase, .ds, .es, .fs, .gs]

def fieldNamed (name : String) : Option Reg := userRegs.find? (Reg.name · = name)

inductive AccessError where
  | attributeError (name : String)
  | overflowError
  deriving DecidableEq

/-- `getattr(self.register_file, name)` -/
def getAttribute (file : UserRegs) (name : String) : Except AccessError Int :=
  match fieldNamed name with
  | some reg => pure (file reg)
  | none => throw (.attributeError name)

/-- `setattr(self.register_file, name, value)`. The fields are `unsigned long`, what does not
fit them is refused. -/
def setAttribute (file : UserRegs) (name : String) (value : Int) : Except AccessError UserRegs :=
  match fieldNamed name with
  | some reg =>
      if 0 ≤ value ∧ value < 2 ^ 64 then pure (Function.update file reg value.toNat)
      else throw .overflowError
  | none => throw (.attributeError name)

/-! ### The accessors -/

/-- What `_get_property_64` and the others return, with the name they are given. The getters and
setters ensure that the process is stopped first, which changes nothing when it is. -/
inductive Property where
  | property64 (name : String)
  | property32 (name : String)
  | property16 (name : String)
  | property8l (name : String)
  | property8h (name : String)
  deriving DecidableEq

def Property.getter (file : UserRegs) : Property → Except AccessError Int
  | .property64 name => getAttribute file name
  | .property32 name => return (← getAttribute file name).land 0xFFFFFFFF
  | .property16 name => return (← getAttribute file name).land 0xFFFF
  | .property8l name => return (← getAttribute file name).land 0xFF
  | .property8h name => return ((← getAttribute file name) >>> (8 : Nat)).land 0xFF

def Property.setter (file : UserRegs) (value : Int) : Property → Except AccessError UserRegs
  | .property64 name => setAttribute file name value
  | .property32 name => setAttribute file name (value.land 0xFFFFFFFF)
  | .property16 name => do
      let value := ((← getAttribute file name).land (Int.lnot 0xFFFF)).lor (value.land 0xFFFF)
      setAttribute file name value
  | .property8l name => do
      let value := ((← getAttribute file name).land (Int.lnot 0xFF)).lor (value.land 0xFF)
      setAttribute file name value
  | .property8h name => do
      let value :=
        ((← getAttribute file name).land (Int.lnot 0xFF00)).lor ((value.land 0xFF) <<< (8 : Nat))
      setAttribute file name value

abbrev TargetClass := Dict String Property

def amd64GpRegs : List String := ["a", "b", "c", "d"]

def amd64BaseRegs : List String := ["bp", "sp", "si", "di"]

def amd64ExtRegs : List String := ["r8", "r9", "r10", "r11", "r12", "r13", "r14", "r15"]

/-- The accessors of a general purpose register -/
def setGpAccessors (targetClass : TargetClass) (name : String) : TargetClass :=
  let name64 := "r" ++ name ++ "x"
  ((((targetClass.set name64 (.property64 name64)).set ("e" ++ name ++ "x")
    (.property32 name64)).set (name ++ "x") (.property16 name64)).set (name ++ "l")
    (.property8l name64)).set (name ++ "h") (.property8h name64)

def setBaseAccessors (targetClass : TargetClass) (name : String) : TargetClass :=
  let name64 := "r" ++ name
  (((targetClass.set name64 (.property64 name64)).set ("e" ++ name) (.property32 name64)).set name
    (.property16 name64)).set (name ++ "l") (.property8l name64)

def setExtAccessors (targetClass : TargetClass) (name : String) : TargetClass :=
  (((targetClass.set name (.property64 name)).set (name ++ "d") (.property32 name)).set
    (name ++ "w") (.property16 name)).set (name ++ "b") (.property8l name)

/-- `apply_on_regs`: a class that has `rip` has the accessors already. -/
def applyOnRegs (targetClass : TargetClass) : TargetClass :=
  if "rip" ∈ targetClass.keys then targetClass
  else
    let general := amd64GpRegs.foldl setGpAccessors targetClass
    let base := amd64BaseRegs.foldl setBaseAccessors general
    let extended := amd64ExtRegs.foldl setExtAccessors base
    extended.set "rip" (.property64 "rip")

/-- `Amd64Registers`, which has no accessors of its own -/
@[irreducible] def amd64Registers : TargetClass := applyOnRegs .empty

/-- `regs.<name>` -/
def readAccessor (file : UserRegs) (name : String) : Except AccessError Int :=
  match amd64Registers.get? name with
  | some property => property.getter file
  | none => throw (.attributeError name)

/-- `regs.<name> = value`. A name without an accessor becomes an attribute of the object, the
file is not written. -/
def writeAccessor (file : UserRegs) (name : String) (value : Int) : Except AccessError UserRegs :=
  match amd64Registers.get? name with
  | some property => property.setter file value
  | none => pure file

/-- Writes one after the other -/
def writeAccessors (file : UserRegs) (writes : List (String × Int)) :
    Except AccessError UserRegs :=
  writes.foldlM (fun file write => writeAccessor file write.1 write.2) file

/-! ### The architecture -/

/-- The parts of a register that have a name -/
inductive Part where
  | whole
  | low32
  | low16
  | low8
  | high8
  deriving DecidableEq

abbrev Words := Reg → BitVec 64

/-- The number in a part of a register -/
def Part.read : Part → BitVec 64 → Nat
  | .whole, word => word.toNat
  | .low32, word => (word.extractLsb' 0 32).toNat
  | .low16, word => (word.extractLsb' 0 16).toNat
  | .low8, word => (word.extractLsb' 0 8).toNat
  | .high8, word => (word.extractLsb' 8 8).toNat

/-- A write of `k` bits takes the value modulo `2 ^ k`. One of 32 bits clears the upper half, the
shorter ones keep what is beside the part. -/
def Part.write : Part → BitVec 64 → Int → BitVec 64
  | .whole, _, value => BitVec.ofInt 64 value
  | .low32, _, value => 0#32 ++ BitVec.ofInt 32 value
  | .low16, word, value => word.extractLsb' 16 48 ++ BitVec.ofInt 16 value
  | .low8, word, value => word.extractLsb' 8 56 ++ BitVec.ofInt 8 value
  | .high8, word, value =>
      word.extractLsb' 16 48 ++ BitVec.ofInt 8 value ++ word.extractLsb' 0 8

/-- The names of a register: the whole, 32, 16 and the low 8 bits -/
structure Names where
  reg : Reg
  whole : String
  low32 : String
  low16 : String
  low8 : String
  high8 : Option String := none

def namesOf : List Names :=
  [ ⟨.rax, "rax", "eax", "ax", "al", some "ah"⟩,
    ⟨.rbx, "rbx", "ebx", "bx", "bl", some "bh"⟩,
    ⟨.rcx, "rcx", "ecx", "cx", "cl", some "ch"⟩,
    ⟨.rdx, "rdx", "edx", "dx", "dl", some "dh"⟩,
    ⟨.rbp, "rbp", "ebp", "bp", "bpl", none⟩,
    ⟨.rsp, "rsp", "esp", "sp", "spl", none⟩,
    ⟨.rsi, "rsi", "esi", "si", "sil", none⟩,
    ⟨.rdi, "rdi", "edi", "di", "dil", none⟩,
    ⟨.r8, "r8", "r8d", "r8w", "r8b", none⟩,
    ⟨.r9, "r9", "r9d", "r9w", "r9b", none⟩,
    ⟨.r10, "r10", "r10d", "r10w", "r10b", none⟩,
    ⟨.r11, "r11", "r11d", "r11w", "r11b", none⟩,
    ⟨.r12, "r12", "r12d", "r12w", "r12b", none⟩,
    ⟨.r13, "r13", "r13d", "r13w", "r13b", none⟩,
    ⟨.r14, "r14", "r14d", "r14w", "r14b", none⟩,
    ⟨.r15, "r15", "r15d", "r15w", "r15b", none⟩ ]

/-- What a name stands for in the architecture, the instruction pointer as a whole only -/
def Names.aliases (names : Names) : List (String × Reg × Part) :=
  [(names.whole, names.reg, .whole), (names.low32, names.reg, .low32),
    (names.low16, names.reg, .low16), (names.low8, names.reg, .low8)] ++
  names.high8.toList.map fun name => (name, names.reg, .high8)

def aliases : List (String × Reg × Part) :=
  namesOf.flatMap Names.aliases ++ [("rip", .rip, .whole)]

def architecture (name : String) : Option (Reg × Part) := aliases.lookup name

/-- A write to the registers of the architecture; no other register changes. -/
def writeWords (words : Words) (write : String × Int) : Words :=
  match architecture write.1 with
  | some (reg, part) => Function.update words reg (part.write (words reg) write.2)
  | none => words

/-! ### Views of one word -/

/-- The file holds these words. -/
def Holds (file : UserRegs) (words : Words) : Prop := ∀ reg, file reg = (words reg).toNat

variable {file : UserRegs} {words : Words} {word : BitVec 64} {value : Int} {name : String}

theorem testBit_held (word : BitVec 64) (bit : Nat) :
    (word.toNat : Int).testBit bit = word.getLsbD bit := rfl

theorem testBit_0xFFFFFFFF (bit : Nat) : Int.testBit 0xFFFFFFFF bit = decide (bit < 32) :=
  testBit_intMask 32 bit

theorem testBit_0xFFFF (bit : Nat) : Int.testBit 0xFFFF bit = decide (bit < 16) :=
  testBit_intMask 16 bit

theorem testBit_0xFF (bit : Nat) : Int.testBit 0xFF bit = decide (bit < 8) :=
  testBit_intMask 8 bit

theorem testBit_0xFF00 (bit : Nat) :
    Int.testBit 0xFF00 bit = (decide (8 ≤ bit) && decide (bit - 8 < 8)) := by
  have shifted : (0xFF00 : Int) = (0xFF : Int) <<< (8 : Nat) := by decide
  rw [shifted, testBit_intShiftLeft, testBit_0xFF]

/-- Above a part that was cut off, the rest of a word has the bits of the word. -/
theorem getLsbD_above (word : BitVec 64) (start : Nat) {bit : Nat} (above : start ≤ bit) :
    (decide (bit - start < 64 - start) && word.getLsbD (start + (bit - start))) =
      word.getLsbD bit := by
  rw [Nat.add_sub_cancel' above]
  by_cases high : bit < 64
  · rw [decide_eq_true (Nat.sub_lt_sub_right above high), Bool.true_and]
  · rw [BitVec.getLsbD_of_ge word bit (Nat.not_lt.mp high), Bool.and_false]

/-- The number a setter stores in a field that holds a word -/
def Part.stored : Part → Int → Int → Int
  | .whole, _, value => value
  | .low32, _, value => value.land 0xFFFFFFFF
  | .low16, old, value => (old.land (Int.lnot 0xFFFF)).lor (value.land 0xFFFF)
  | .low8, old, value => (old.land (Int.lnot 0xFF)).lor (value.land 0xFF)
  | .high8, old, value => (old.land (Int.lnot 0xFF00)).lor ((value.land 0xFF) <<< (8 : Nat))

/-- The number a getter makes of a field that holds a word -/
def Part.shown : Part → Int → Int
  | .whole, old => old
  | .low32, old => old.land 0xFFFFFFFF
  | .low16, old => old.land 0xFFFF
  | .low8, old => old.land 0xFF
  | .high8, old => (old >>> (8 : Nat)).land 0xFF

/-- **A setter stores what the architecture makes of the register.** -/
theorem stored_eq (part : Part) (word : BitVec 64) (value : Int)
    (fits : part = .whole → 0 ≤ value ∧ value < 2 ^ 64) :
    part.stored word.toNat value = (part.write word value).toNat := by
  cases part with
  | whole =>
      obtain ⟨nonneg, small⟩ := fits rfl
      rw [Part.write, BitVec.toNat_ofInt, Part.stored]
      omega
  | low32 =>
      apply eq_toNat_of_testBit
      intro bit
      simp only [Part.stored, Part.write, Int.testBit_land, testBit_0xFFFFFFFF,
        BitVec.getLsbD_append, getLsbD_ofInt]
      by_cases low : bit < 32
      · simp [low]
      · simp [low]
  | low16 =>
      apply eq_toNat_of_testBit
      intro bit
      simp only [Part.stored, Part.write, Int.testBit_lor, Int.testBit_land, Int.testBit_lnot,
        testBit_held, testBit_0xFFFF, BitVec.getLsbD_append, getLsbD_ofInt,
        BitVec.getLsbD_extractLsb']
      by_cases low : bit < 16
      · simp [low]
      · simp [low, getLsbD_above word 16 (Nat.not_lt.mp low)]
  | low8 =>
      apply eq_toNat_of_testBit
      intro bit
      simp only [Part.stored, Part.write, Int.testBit_lor, Int.testBit_land, Int.testBit_lnot,
        testBit_held, testBit_0xFF, BitVec.getLsbD_append, getLsbD_ofInt,
        BitVec.getLsbD_extractLsb']
      by_cases low : bit < 8
      · simp [low]
      · simp [low, getLsbD_above word 8 (Nat.not_lt.mp low)]
  | high8 =>
      apply eq_toNat_of_testBit
      intro bit
      simp only [Part.stored, Part.write, Int.testBit_lor, Int.testBit_land, Int.testBit_lnot,
        testBit_intShiftLeft, testBit_held, testBit_0xFF, testBit_0xFF00, BitVec.getLsbD_append,
        getLsbD_ofInt, BitVec.getLsbD_extractLsb']
      by_cases low : bit < 8
      · simp [low, Nat.not_le.mpr low]
      · have above : 8 ≤ bit := Nat.not_lt.mp low
        by_cases high : bit - 8 < 8
        · simp [low, above, high]
        · have upper : 16 ≤ bit := by omega
          simp [low, high, Nat.sub_sub, getLsbD_above word 16 upper]

/-- **A getter shows what the architecture has in the part.** -/
theorem shown_eq (part : Part) (word : BitVec 64) :
    part.shown word.toNat = part.read word := by
  cases part with
  | whole => rfl
  | low32 =>
      apply eq_toNat_of_testBit
      intro bit
      simp only [Part.shown, Int.testBit_land, testBit_held, testBit_0xFFFFFFFF,
        BitVec.getLsbD_extractLsb', Nat.zero_add, Bool.and_comm]
  | low16 =>
      apply eq_toNat_of_testBit
      intro bit
      simp only [Part.shown, Int.testBit_land, testBit_held, testBit_0xFFFF,
        BitVec.getLsbD_extractLsb', Nat.zero_add, Bool.and_comm]
  | low8 =>
      apply eq_toNat_of_testBit
      intro bit
      simp only [Part.shown, Int.testBit_land, testBit_held, testBit_0xFF,
        BitVec.getLsbD_extractLsb', Nat.zero_add, Bool.and_comm]
  | high8 =>
      apply eq_toNat_of_testBit
      intro bit
      simp only [Part.shown, Int.testBit_land, testBit_intShiftRight, testBit_held, testBit_0xFF,
        BitVec.getLsbD_extractLsb', Bool.and_comm]

/-! ### Accessors by name -/

/-- The accessor of a part -/
def Part.property : Part → String → Property
  | .whole, name => .property64 name
  | .low32, name => .property32 name
  | .low16, name => .property16 name
  | .low8, name => .property8l name
  | .high8, name => .property8h name

theorem fieldNamed_name (reg : Reg) : fieldNamed (Reg.name reg) = some reg := by
  cases reg <;> decide

/-- The accessors of the class are those of the parts that have a name in the architecture. -/
theorem entries_amd64Registers : amd64Registers.entries =
    aliases.map fun row => (row.1, row.2.2.property (Reg.name row.2.1)) := by
  decide +kernel

theorem keys_amd64Registers : amd64Registers.keys = aliases.map Prod.fst := by
  rw [Dict.keys, entries_amd64Registers, List.map_map]
  exact List.map_congr_left fun _ _ => rfl

theorem mem_keys : name ∈ amd64Registers.keys ↔ name ∈ aliases.map Prod.fst := by
  rw [keys_amd64Registers]

theorem lookup_of_mem {β : Type} {rows : List (String × β)} {row : String × β}
    (distinct : (rows.map Prod.fst).Nodup) (member : row ∈ rows) :
    rows.lookup row.1 = some row.2 := by
  induction rows with
  | nil => cases member
  | cons first rest ih =>
      obtain ⟨notLater, distinct⟩ := List.nodup_cons.mp distinct
      obtain rfl | later := List.mem_cons.mp member
      · exact List.lookup_cons_self
      · have different : row.1 ≠ first.1 := by
          rintro same
          exact notLater (same ▸ List.mem_map_of_mem later)
        rw [List.lookup_cons, beq_false_of_ne different]
        exact ih distinct later

/-- No name stands for two parts: the accessors of a class have names of their own. -/
theorem architecture_alias : ∀ row ∈ aliases, architecture row.1 = some row.2 := by
  intro row member
  refine lookup_of_mem ?_ member
  rw [← keys_amd64Registers]
  exact amd64Registers.distinct

theorem accessor_named (accessor : name ∈ amd64Registers.keys) :
    ∃ reg part, architecture name = some (reg, part) ∧
      amd64Registers.get? name = some (part.property (Reg.name reg)) := by
  obtain ⟨⟨_, reg, part⟩, row, rfl⟩ := List.mem_map.mp (mem_keys.mp accessor)
  refine ⟨reg, part, architecture_alias _ row, Dict.get?_eq_some.mpr ?_⟩
  rw [entries_amd64Registers]
  exact List.mem_map_of_mem row

theorem getter_property (file : UserRegs) (reg : Reg) (part : Part) :
    (part.property (Reg.name reg)).getter file = .ok (part.shown (file reg)) := by
  have field : getAttribute file (Reg.name reg) = pure (file reg : Int) := by
    rw [getAttribute, fieldNamed_name]
  cases part with
  | whole => exact field
  | low32 => rw [Part.property, Property.getter, field, pure_bind]; rfl
  | low16 => rw [Part.property, Property.getter, field, pure_bind]; rfl
  | low8 => rw [Part.property, Property.getter, field, pure_bind]; rfl
  | high8 => rw [Part.property, Property.getter, field, pure_bind]; rfl

theorem setter_property (file : UserRegs) (reg : Reg) (part : Part) (value : Int) :
    (part.property (Reg.name reg)).setter file value =
      setAttribute file (Reg.name reg) (part.stored (file reg) value) := by
  have field : getAttribute file (Reg.name reg) = pure (file reg : Int) := by
    rw [getAttribute, fieldNamed_name]
  cases part with
  | whole => rfl
  | low32 => rfl
  | low16 => rw [Part.property, Property.setter, field, pure_bind]; rfl
  | low8 => rw [Part.property, Property.setter, field, pure_bind]; rfl
  | high8 => rw [Part.property, Property.setter, field, pure_bind]; rfl

theorem readAccessor_of_get {property : Property}
    (accessor : amd64Registers.get? name = some property) :
    readAccessor file name = property.getter file := by
  rw [readAccessor, accessor]

theorem writeAccessor_of_get {property : Property}
    (accessor : amd64Registers.get? name = some property) :
    writeAccessor file name value = property.setter file value := by
  rw [writeAccessor, accessor]

theorem readAccessor_eq (holds : Holds file words) (accessor : name ∈ amd64Registers.keys) :
    ∃ reg part, architecture name = some (reg, part) ∧
      readAccessor file name = .ok (part.read (words reg)) := by
  obtain ⟨reg, part, place, property⟩ := accessor_named accessor
  refine ⟨reg, part, place, ?_⟩
  rw [readAccessor_of_get property, getter_property, holds reg, shown_eq]

/-- A number that is the number in a word fits the field. -/
theorem setAttribute_word (file : UserRegs) (reg : Reg) (word : BitVec 64) :
    setAttribute file (Reg.name reg) word.toNat = .ok (Function.update file reg word.toNat) := by
  have fits : (0 : Int) ≤ word.toNat ∧ (word.toNat : Int) < 2 ^ 64 := by
    have small := word.isLt
    omega
  simp only [setAttribute, fieldNamed_name, if_pos fits, Int.toNat_natCast]
  rfl

/-- **One write**: the file holds what the architecture has after it. -/
theorem writeAccessor_holds (holds : Holds file words) (accessor : name ∈ amd64Registers.keys)
    (inRange : ∀ reg, architecture name = some (reg, .whole) → 0 ≤ value ∧ value < 2 ^ 64) :
    ∃ after, writeAccessor file name value = .ok after ∧
      Holds after (writeWords words (name, value)) := by
  obtain ⟨reg, part, place, property⟩ := accessor_named accessor
  have stored : part.stored (file reg) value = (part.write (words reg) value).toNat := by
    rw [holds reg]
    apply stored_eq
    intro whole
    exact inRange reg (whole ▸ place)
  refine ⟨Function.update file reg (part.write (words reg) value).toNat, ?_, ?_⟩
  · rw [writeAccessor_of_get property, setter_property, stored, setAttribute_word]
  · intro other
    simp only [writeWords, place]
    by_cases same : other = reg
    · rw [same, Function.update_self, Function.update_self]
    · rw [Function.update_of_ne same, Function.update_of_ne same]
      exact holds other

/-- The accessors among the writes, and the range of what is written to whole registers -/
def Admissible (write : String × Int) : Prop :=
  write.1 ∈ amd64Registers.keys ∧
    ∀ reg, architecture write.1 = some (reg, .whole) → 0 ≤ write.2 ∧ write.2 < 2 ^ 64

theorem writeAccessors_holds {writes : List (String × Int)} :
    ∀ {file : UserRegs} {words : Words}, Holds file words → (∀ write ∈ writes, Admissible write) →
      ∃ after, writeAccessors file writes = .ok after ∧
        Holds after (writes.foldl writeWords words) := by
  induction writes with
  | nil =>
      intro file words holds _
      exact ⟨file, rfl, holds⟩
  | cons write later ih =>
      intro file words holds admissible
      obtain ⟨accessor, inRange⟩ := admissible write List.mem_cons_self
      obtain ⟨next, written, nextHolds⟩ := writeAccessor_holds holds accessor inRange
      obtain ⟨after, run, afterHolds⟩ := ih nextHolds fun other member =>
        admissible other (List.mem_cons_of_mem write member)
      refine ⟨after, ?_, afterHolds⟩
      simp only [writeAccessors, List.foldlM_cons, written]
      exact run

/-- The words of a register file -/
def wordsOf (file : UserRegs) : Words := fun reg => BitVec.ofNat 64 (file reg)

theorem holds_wordsOf (fits : ∀ reg, file reg < 2 ^ 64) : Holds file (wordsOf file) := by
  intro reg
  rw [wordsOf, BitVec.toNat_ofNat, Nat.mod_eq_of_lt (fits reg)]

end Libdebug.Architectures.SubRegisters
