import Mathlib.Data.List.Infix

/-!
A stream cut at a delimiter. A segment is the shortest string that ends with the delimiter; so
many segments, one after another, make up the shortest prefix of the stream in which the
delimiter occurs so many times without overlap.
-/

namespace Libdebug.Foundation

variable {α : Type} {delims segment stream first second : List α} {segments : List (List α)}

/-- The delimiter occurs so many times, one occurrence after the other. -/
def Occurs (delims : List α) : Nat → List α → Prop
  | 0, _ => True
  | times + 1, text => ∃ before after, text = before ++ delims ++ after ∧ Occurs delims times after

/-- No shorter beginning of the segment contains the delimiter that it ends with. -/
structure IsSegment (delims segment : List α) : Prop where
  ends : delims <:+ segment
  shortest : ∀ start, start <+: segment → delims <:+: start → start = segment

/-- The shortest prefix of a stream with a property -/
structure ShortestPrefix (property : List α → Prop) (start stream : List α) : Prop where
  within : start <+: stream
  holds : property start
  shortest : ∀ other, other <+: stream → property other → start <+: other

theorem Occurs.prepend {times : Nat} {text : List α} (before : List α)
    (occurs : Occurs delims times text) : Occurs delims times (before ++ text) := by
  cases times with
  | zero => trivial
  | succ times =>
      obtain ⟨front, after, rfl, rest⟩ := occurs
      exact ⟨before ++ front, after, by simp, rest⟩

/-- A string that grows by one element at a time becomes a segment as soon as it contains the
delimiter. -/
theorem isSegment_snoc {text : List α} {element : α} (absent : ¬ delims <:+: text)
    (present : delims <:+: text ++ [element]) : IsSegment delims (text ++ [element]) := by
  constructor
  · obtain ⟨before, after, whole⟩ := present
    rcases List.eq_nil_or_concat after with rfl | ⟨init, last, rfl⟩
    · exact ⟨before, by simpa using whole⟩
    · rw [List.concat_eq_append, ← List.append_assoc] at whole
      obtain ⟨same, _⟩ := List.append_inj' whole rfl
      exact absurd ⟨before, init, same⟩ absent
  · intro start beginning inside
    rcases List.prefix_concat_iff.mp beginning with whole | shorter
    · exact whole
    · exact absurd (inside.trans shorter.isInfix) absent

/-- In the segments the delimiter occurs once each. -/
theorem occurs_flatten (cut : ∀ segment ∈ segments, IsSegment delims segment) :
    Occurs delims segments.length segments.flatten := by
  induction segments with
  | nil => trivial
  | cons segment rest ih =>
      obtain ⟨here, later⟩ := List.forall_mem_cons.mp cut
      obtain ⟨before, rfl⟩ := here.ends
      exact ⟨before, rest.flatten, by simp, ih later⟩

/-- No shorter prefix of the segments contains the delimiter as many times. -/
theorem flatten_prefix_of_occurs (cut : ∀ segment ∈ segments, IsSegment delims segment) :
    ∀ {other}, other <+: segments.flatten → Occurs delims segments.length other →
      segments.flatten <+: other := by
  induction segments with
  | nil =>
      intro other _ _
      exact List.nil_prefix
  | cons segment rest ih =>
      intro other shorter occurs
      obtain ⟨here, later⟩ := List.forall_mem_cons.mp cut
      obtain ⟨before, after, rfl, occurs⟩ := occurs
      rw [List.flatten_cons] at shorter ⊢
      -- the first occurrence does not end before the first segment does
      have covers : segment <+: before ++ delims := by
        have start : before ++ delims <+: segment ++ rest.flatten :=
          (List.prefix_append _ after).trans shorter
        rcases List.prefix_or_prefix_of_prefix start (List.prefix_append segment _) with
          inside | beyond
        · have contains : delims <:+: before ++ delims := ⟨before, [], by simp⟩
          rw [here.shortest _ inside contains]
        · exact beyond
      obtain ⟨more, extra⟩ := covers
      rw [← extra, List.append_assoc] at shorter ⊢
      have tail := (List.prefix_append_right_inj segment).mp shorter
      exact (List.prefix_append_right_inj segment).mpr (ih later tail (occurs.prepend more))

/-- The segments that a stream begins with are its shortest prefix with as many occurrences. -/
theorem shortestPrefix_flatten (cut : ∀ segment ∈ segments, IsSegment delims segment)
    (within : segments.flatten <+: stream) :
    ShortestPrefix (Occurs delims segments.length) segments.flatten stream where
  within := within
  holds := occurs_flatten cut
  shortest := by
    intro other start occurs
    rcases List.prefix_or_prefix_of_prefix within start with longer | shorter
    · exact longer
    · exact flatten_prefix_of_occurs cut shorter occurs

end Libdebug.Foundation
