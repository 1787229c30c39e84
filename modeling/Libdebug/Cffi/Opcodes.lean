import Libdebug.Cffi.Resume

/-!
`IS_CALL_INSTRUCTION` and `IS_RET_INSTRUCTION` against the encoding of instructions. The two
look at the first bytes of a window only, so an instruction with a prefix is never taken for a
call or a return, and of the indirect calls only the near ones are known.
-/

namespace Libdebug.Cffi

open Libdebug.Foundation

/-- Lock and repetition, segment overrides, operand size and address size -/
def legacyPrefixes : List Byte :=
  [0xF0#8, 0xF2#8, 0xF3#8, 0x2E#8, 0x36#8, 0x3E#8, 0x26#8, 0x64#8, 0x65#8, 0x66#8, 0x67#8]

def isRexPrefix (b : Byte) : Bool := b &&& 0xF0#8 = 0x40#8

/-- The field `reg` of a ModRM byte -/
def regField (modRM : Byte) : Byte := (modRM >>> 3) &&& 7#8

/-- An instruction, up to the byte after its opcode. -/
structure Encoding where
  legacy : List Byte
  rex : Option Byte
  opcode : Byte
  /-- the ModRM byte, where the opcode has one -/
  next : Byte
  legacy_legal : ∀ b ∈ legacy, b ∈ legacyPrefixes
  rex_legal : ∀ b ∈ rex, isRexPrefix b = true
  opcode_legal : opcode ∉ legacyPrefixes ∧ isRexPrefix opcode = false

namespace Encoding

variable (e : Encoding)

def prefixes : List Byte := e.legacy ++ e.rex.toList

def bytes : List Byte := e.prefixes ++ [e.opcode, e.next]

/-- A direct call, or an indirect one, near or far. -/
def IsCall : Prop :=
  e.opcode = 0xE8#8 ∨ (e.opcode = 0xFF#8 ∧ (regField e.next = 2#8 ∨ regField e.next = 3#8))

/-- A near or far return, with or without a count. -/
def IsReturn : Prop :=
  e.opcode = 0xC3#8 ∨ e.opcode = 0xCB#8 ∨ e.opcode = 0xC2#8 ∨ e.opcode = 0xCA#8

instance : Decidable e.IsCall := inferInstanceAs (Decidable (_ ∨ _))

instance : Decidable e.IsReturn := inferInstanceAs (Decidable (_ ∨ _))

/-- By how much the instruction changes the depth of nested calls. -/
def nesting : Int := if e.IsCall then 1 else if e.IsReturn then -1 else 0

/-- The window holds the bytes of the instruction, as far as it reaches. -/
def Fetched (window : Word) : Prop :=
  ∀ i, (inside : i < e.bytes.length) → i < 8 → byteOf window i = e.bytes[i]

/-- The window is taken for what the instruction is, and counted so. -/
structure Recognised (window : Word) : Prop where
  call : isCallInstruction window = true ↔ e.IsCall
  ret : isRetInstruction window = true ↔ e.IsReturn
  counted : ∀ counter, countNestedCalls window counter = counter + e.nesting

/-- The instruction has no prefix and is not a far indirect call, or it is neither a call nor
a return. -/
def Plain : Prop :=
  (e.prefixes = [] ∧ ¬ (e.opcode = 0xFF#8 ∧ regField e.next = 3#8)) ∨ (¬ e.IsCall ∧ ¬ e.IsReturn)

variable {e} {window : Word}

theorem isCallInstruction_iff : isCallInstruction window = true ↔
    byteOf window 0 = 0xE8#8 ∨
      (byteOf window 0 = 0xFF#8 ∧ regField (byteOf window 1) = 2#8) := by
  unfold isCallInstruction regField
  split
  · rename_i direct
    exact iff_of_true rfl (.inl direct)
  · rename_i notDirect
    split
    · rename_i indirect
      simp [indirect]
    · rename_i notIndirect
      simp [notDirect, notIndirect]

theorem isRetInstruction_iff : isRetInstruction window = true ↔
    byteOf window 0 = 0xC3#8 ∨ byteOf window 0 = 0xCB#8 ∨ byteOf window 0 = 0xC2#8 ∨
      byteOf window 0 = 0xCA#8 := by
  simp only [isRetInstruction, Bool.or_eq_true, decide_eq_true_eq, or_assoc]

/-- The opcodes that are looked for are no prefixes. -/
theorem not_prefix_of_opcode : ∀ b ∈ [0xE8#8, 0xFF#8, 0xC3#8, 0xC2#8, 0xCB#8, 0xCA#8],
    ¬ (b ∈ legacyPrefixes ∨ isRexPrefix b = true) := by
  decide

/-- A first byte that is a prefix is not the opcode of a call or a return. -/
theorem unrecognised_of_prefix (first : byteOf window 0 ∈ legacyPrefixes ∨
    isRexPrefix (byteOf window 0) = true) :
    isCallInstruction window = false ∧ isRetInstruction window = false := by
  have differs : ∀ b ∈ [0xE8#8, 0xFF#8, 0xC3#8, 0xC2#8, 0xCB#8, 0xCA#8],
      byteOf window 0 ≠ b := by
    intro b listed same
    rw [same] at first
    exact not_prefix_of_opcode b listed first
  constructor
  · rw [← Bool.not_eq_true, isCallInstruction_iff]
    rintro (direct | ⟨indirect, -⟩)
    · exact differs _ (by simp) direct
    · exact differs _ (by simp) indirect
  · rw [← Bool.not_eq_true, isRetInstruction_iff]
    rintro (opcode | opcode | opcode | opcode) <;> exact differs _ (by simp) opcode

theorem first_of_prefixed (fetched : e.Fetched window) (prefixed : e.prefixes ≠ []) :
    byteOf window 0 ∈ legacyPrefixes ∨ isRexPrefix (byteOf window 0) = true := by
  obtain ⟨first, rest, listed⟩ := List.exists_cons_of_ne_nil prefixed
  have whole : e.bytes = first :: (rest ++ [e.opcode, e.next]) := by rw [bytes, listed]; rfl
  have here : byteOf window 0 = first := by
    rw [fetched 0 (by simp [whole]) (by decide)]
    simp [whole]
  have member : first ∈ e.prefixes := by simp [listed]
  rw [here]
  rcases List.mem_append.mp member with legacy | rex
  · exact .inl (e.legacy_legal first legacy)
  · exact .inr (e.rex_legal first (Option.mem_toList.mp rex))

theorem opcode_of_unprefixed (fetched : e.Fetched window) (unprefixed : e.prefixes = []) :
    byteOf window 0 = e.opcode ∧ byteOf window 1 = e.next := by
  have whole : e.bytes = [e.opcode, e.next] := by rw [bytes, unprefixed]; rfl
  constructor
  · rw [fetched 0 (by simp [whole]) (by decide)]
    simp [whole]
  · rw [fetched 1 (by simp [whole]) (by decide)]
    simp [whole]

theorem recognised_of_agree (call : isCallInstruction window = true ↔ e.IsCall)
    (ret : isRetInstruction window = true ↔ e.IsReturn) : e.Recognised window := by
  refine ⟨call, ret, fun counter => ?_⟩
  unfold countNestedCalls nesting
  simp only [call, ret]
  split
  · rfl
  · split
    · rfl
    · exact (Int.add_zero counter).symm

/-- Calls and returns are recognised if and only if the instruction is plain. -/
theorem recognised_iff (fetched : e.Fetched window) : e.Recognised window ↔ e.Plain := by
  by_cases unprefixed : e.prefixes = []
  · obtain ⟨first, second⟩ := opcode_of_unprefixed fetched unprefixed
    have ret : isRetInstruction window = true ↔ e.IsReturn := by
      rw [isRetInstruction_iff, first, IsReturn]
    have call : isCallInstruction window = true ↔
        e.opcode = 0xE8#8 ∨ (e.opcode = 0xFF#8 ∧ regField e.next = 2#8) := by
      rw [isCallInstruction_iff, first, second]
    constructor
    · intro recognised
      by_cases far : e.opcode = 0xFF#8 ∧ regField e.next = 3#8
      · have taken := call.mp (recognised.call.mpr (.inr ⟨far.1, .inr far.2⟩))
        rw [far.1, far.2] at taken
        exact absurd taken (by decide)
      · exact .inl ⟨unprefixed, far⟩
    · intro plain
      apply recognised_of_agree (call.trans _) ret
      rcases plain with ⟨-, notFar⟩ | ⟨notCall, -⟩
      · apply or_congr_right
        apply and_congr_right
        intro indirect
        exact (or_iff_left fun far => notFar ⟨indirect, far⟩).symm
      · apply iff_of_false _ notCall
        intro near
        exact notCall (near.imp_right fun second => ⟨second.1, .inl second.2⟩)
  · obtain ⟨notCall, notRet⟩ := unrecognised_of_prefix (first_of_prefixed fetched unprefixed)
    constructor
    · rintro ⟨call, ret, -⟩
      rw [notCall] at call
      rw [notRet] at ret
      exact .inr ⟨fun is => Bool.false_ne_true (call.mpr is),
        fun is => Bool.false_ne_true (ret.mpr is)⟩
    · rintro (⟨none, -⟩ | ⟨isNotCall, isNotReturn⟩)
      · exact absurd none unprefixed
      · apply recognised_of_agree
        · rw [notCall]
          exact iff_of_false Bool.false_ne_true isNotCall
        · rw [notRet]
          exact iff_of_false Bool.false_ne_true isNotReturn

/-- `call rax` -/
def callRax : Encoding where
  legacy := []
  rex := none
  opcode := 0xFF#8
  next := 0xD0#8
  legacy_legal := by simp
  rex_legal := by simp
  opcode_legal := by decide

theorem recognised_callRax : callRax.Fetched 0xD0FF#64 ∧
    (callRax.Recognised 0xD0FF#64 ↔ callRax.Plain) := by
  have fetched : callRax.Fetched 0xD0FF#64 := by
    intro i inside _
    rcases i with _ | _ | i
    · rfl
    · rfl
    · exact absurd inside (by simp [bytes, prefixes, callRax])
  exact ⟨fetched, recognised_iff fetched⟩

/-- `call r12` -/
def callR12 : Encoding :=
  { callRax with rex := some 0x41#8, next := 0xD4#8, rex_legal := by simp; decide }

/-- A call that needs a prefix for its register is not recognised. -/
theorem callR12_unrecognised :
    (callR12.Fetched 0xD4FF41#64 ∧ callR12.IsCall) ∧ ¬ callR12.Recognised 0xD4FF41#64 := by
  refine ⟨⟨?_, by decide⟩, ?_⟩
  · intro i inside _
    rcases i with _ | _ | _ | i
    · rfl
    · rfl
    · rfl
    · exact absurd inside (by simp [bytes, prefixes, callR12, callRax])
  · rintro ⟨call, -, -⟩
    exact absurd (call.mpr (by decide)) (by decide)

end Encoding

end Libdebug.Cffi
