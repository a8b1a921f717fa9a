/-! Taking a text apart again. Joined names come apart at the separators between them if no name makes a
separator with what follows it, and a text is cut at its last line break in one way only. -/
namespace BinaryAutomata.Text
open String.Slice.Pattern

/-- What stands between the separators of a text. -/
def pieces (sep text : String) : List String := (text.split sep).toList.map (·.copy)

/-- With `tail` behind the name, the separator begins nowhere in the name. -/
def Passes (sep name tail : String) : Prop :=
  ∀ front back after, name = front ++ back → back ≠ "" → back ++ tail ≠ sep ++ after

/-- A separator behind the name is the first one, whatever follows. -/
def Clear (sep name : String) : Prop := ∀ rest, Passes sep name (sep ++ rest)

/-- The last line break of the text stands between the two parts. -/
structure LastBreak (text before line : String) : Prop where
  parts : text = before ++ "\n" ++ line
  unbroken : '\n' ∉ line.toList

variable {sep name tail : String} {names : List String} {s : String.Slice} {p q : s.Pos}

theorem Clear.at_end (clear : Clear sep name) : Passes sep name "" := by
  intro front back after parts nonempty same
  rw [String.append_empty] at same
  refine clear "" front back (after ++ sep) parts nonempty ?_
  rw [same, String.append_empty, String.append_assoc]

theorem Passes.not_matchesAt (passes : Passes sep name tail) (starts : p.Splits before (name ++ tail))
    (ends : q.Splits (before ++ name) tail) (r : s.Pos) (within : p ≤ r) (short : r < q) :
    ¬ Model.MatchesAt sep r := by
  intro found
  obtain ⟨_, after, found⟩ := Model.ForwardStringSearcher.matchesAt_iff_splits.mp found
  obtain ⟨front, rfl, _⟩ := (starts.le_iff_exists_eq_append found).mp within
  obtain ⟨back, nonempty, whole, same⟩ := (found.lt_iff_exists_eq_append ends).mp short
  rw [String.append_assoc, String.append_right_inj] at whole
  exact passes front back after whole nonempty same.symm

/-- The search for the separator passes over the name. -/
theorem Passes.split_eq [Model.StrictPatternModel sep] (passes : Passes sep name tail)
    (starts : p.Splits before (name ++ tail)) (ends : q.Splits (before ++ name) tail) :
    ∃ le, (s.slice p q le).copy = name ∧
      Model.split sep p p (Std.le_refl _) = Model.split sep p q le := by
  obtain ⟨le, copied⟩ := String.Slice.copy_slice_eq_iff_splits.mpr ⟨_, _, starts, ends⟩
  exact ⟨le, copied, Model.split_eq_of_not_matchesAt q le (passes.not_matchesAt starts ends)⟩

/-- The names come apart from any place in a text behind which they are all that stands. -/
theorem map_copy_split [Model.StrictPatternModel sep]
    (splits : p.Splits before (sep.intercalate names)) (nonempty : names ≠ [])
    (clear : ∀ name ∈ names, Clear sep name) :
    (Model.split sep p p (Std.le_refl _)).map (·.toSlice.copy) = names := by
  induction names generalizing p before with
  | nil => contradiction
  | cons name names ih =>
    obtain ⟨first, clear⟩ := List.forall_mem_cons.mp clear
    -- The last name is followed by the end of the text, and any other by a separator.
    cases names with
    | nil =>
      rw [String.intercalate_singleton, ← String.append_empty (s := name)] at splits
      have ends := splits.splits_rotateRight
      rw [ends.eq_endPos_iff.mpr rfl] at ends
      obtain ⟨le, copied, passed⟩ := first.at_end.split_eq splits ends
      rw [passed, Model.split_endPos, List.map_singleton, String.Slice.toSlice_subslice, copied]
    | cons next names =>
      rw [String.intercalate_cons_cons, String.append_assoc] at splits
      have ends := splits.splits_rotateRight
      have resumes := ends.splits_rotateRight
      have found := Model.ForwardStringSearcher.isLongestMatchAt_iff_splits.mpr ⟨_, _, ends, resumes⟩
      obtain ⟨le, copied, passed⟩ := (first _).split_eq splits ends
      rw [passed, Model.split_eq_of_isLongestMatchAt found, List.map_cons,
        String.Slice.toSlice_subslice, copied, ih resumes (List.cons_ne_nil _ _) clear]

/-- Taking apart at a separator undoes joining with it. -/
theorem pieces_intercalate (solid : sep ≠ "") (nonempty : names ≠ [])
    (clear : ∀ name ∈ names, Clear sep name) : pieces sep (sep.intercalate names) = names := by
  have := Model.ForwardStringSearcher.strictPatternModel solid
  have := Model.ForwardStringSearcher.lawfulToForwardSearcherModel solid
  have starts := String.Slice.splits_startPos (sep.intercalate names).toSlice
  rw [String.copy_toSlice] at starts
  rw [pieces, String.split_eq_split_toSlice, String.Slice.toList_split_eq_splitToSubslice,
    toList_splitToSubslice_eq_modelSplit, List.map_map]
  exact map_copy_split starts nonempty clear

namespace LastBreak

theorem not_earlier {line line' more : List Char} (unbroken : '\n' ∉ line)
    (shifted : '\n' :: line = more ++ '\n' :: line') : more = [] ∧ line = line' := by
  cases more with
  | nil => exact ⟨rfl, (List.cons.inj shifted).2⟩
  | cons c more =>
    have broken : '\n' ∈ line := (List.cons.inj shifted).2 ▸ List.mem_append_right more List.mem_cons_self
    contradiction

theorem unique (cut : LastBreak text before line) (cut' : LastBreak text before' line') :
    before = before' ∧ line = line' := by
  have same : before.toList ++ '\n' :: line.toList = before'.toList ++ '\n' :: line'.toList := by
    simpa using congrArg String.toList (cut.parts.symm.trans cut'.parts)
  rw [← String.toList_inj, ← String.toList_inj]
  obtain ⟨more, longer, shifted⟩ | ⟨more, longer, shifted⟩ := List.append_eq_append_iff.mp same
  · obtain ⟨rfl, lines⟩ := not_earlier cut.unbroken shifted
    exact ⟨by rw [longer, List.append_nil], lines⟩
  · obtain ⟨rfl, lines⟩ := not_earlier cut'.unbroken shifted
    exact ⟨by rw [longer, List.append_nil], lines.symm⟩

end LastBreak
end BinaryAutomata.Text
