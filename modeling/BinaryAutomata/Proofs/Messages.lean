import BinaryAutomata.Error.Message
import BinaryAutomata.Proofs.Quoting
import Mathlib.Tactic.Tauto

/-! Messages tell the errors. The second character of a message and the last one give its cause, whatever
names and characters stand in between, and then all that the cause carries can be read off but the owner
of a handle. -/
namespace BinaryAutomata

open Text

theorem singleton_append_inj {rest rest' : String} :
    String.singleton c ++ rest = String.singleton c' ++ rest' ↔ c = c' ∧ rest = rest' := by
  rw [← String.toList_inj]
  simp [String.toList_inj]

namespace Alphabet

theorem text_append_inj {alphabet alphabet' : Alphabet} {rest rest' : String} :
    alphabet.text ++ rest = alphabet'.text ++ rest' ↔ alphabet = alphabet' ∧ rest = rest' := by
  obtain ⟨onA, onB, _⟩ := alphabet
  obtain ⟨onA', onB', _⟩ := alphabet'
  simp only [text, String.append_assoc, singleton_append_inj, String.append_right_inj, mk.injEq,
    and_assoc]

end Alphabet

namespace Error

/-- The second character of a cause's message and the last one. -/
def marks : Error → Char × Char
  | .invalidSymbol .. => ('h', ')')
  | .degenerateAlphabet _ => ('l', ')')
  | .noInitialState => ('o', 't')
  | .missingTransition .. => ('t', '\'')
  | .stateNotFound _ => ('t', 'n')
  | .emptyStateName => ('t', 'y')
  | .duplicateStateName _ => (' ', 's')
  | .tooManyStates => ('u', 's')

theorem marks_of_message (e : Error) : e.message.toList[1]? = some e.marks.1 ∧
    e.message.toList.getLast? = some e.marks.2 := by
  unfold message
  cases e <;> simp [marks, toList_quoted, List.getLast?_append, List.getLast?_cons]

theorem marks_eq_of_message_eq {e e' : Error} (same : e.message = e'.message) :
    e.marks = e'.marks := by
  obtain ⟨second, last⟩ := e.marks_of_message
  rw [same, e'.marks_of_message.1] at second
  rw [same, e'.marks_of_message.2] at last
  exact Prod.ext (Option.some.inj second).symm (Option.some.inj last).symm

theorem invalidSymbol_message_inj :
    (invalidSymbol found position alphabet).message = (invalidSymbol found' position' alphabet').message ↔
      found = found' ∧ position = position' ∧ alphabet = alphabet' := by
  unfold message
  simp only [String.append_assoc, String.append_right_inj, Alphabet.text_append_inj,
    quoted_append_inj, String.append_left_inj, toString_nat_inj]
  tauto

theorem degenerateAlphabet_message_inj :
    (degenerateAlphabet c).message = (degenerateAlphabet c').message ↔ c = c' := by
  unfold message
  simp only [String.append_assoc, String.append_right_inj, quoted_append_inj, and_true]

/-- The name may hold all that follows it, for the message is read from its end. -/
theorem missingTransition_message_inj :
    (missingTransition name c).message = (missingTransition name' c').message ↔
      name = name' ∧ c = c' := by
  unfold message
  simp only [append_quoted_inj, String.append_left_inj, String.append_right_inj]

theorem stateNotFound_message_inj :
    (stateNotFound h).message = (stateNotFound g).message ↔ h.index = g.index := by
  unfold message
  simp only [StateId.text, String.append_left_inj, String.append_right_inj, toString_nat_inj]

theorem duplicateStateName_message_inj :
    (duplicateStateName name).message = (duplicateStateName name').message ↔ name = name' := by
  unfold message
  simp only [String.append_left_inj, String.append_right_inj]

/-- Errors with the same message are the same error, unless they are of handles that do not resolve and
that have the same index, whose owners no message tells. -/
theorem message_eq_iff (e e' : Error) : e.message = e'.message ↔
    e = e' ∨ ∃ h g, e = .stateNotFound h ∧ e' = .stateNotFound g ∧ h.index = g.index := by
  constructor
  · intro same
    have marked := marks_eq_of_message_eq same
    cases e with
    | invalidSymbol found position alphabet =>
      cases e' with
      | invalidSymbol found' position' alphabet' =>
        obtain ⟨rfl, rfl, rfl⟩ := invalidSymbol_message_inj.mp same
        exact .inl rfl
      | _ => nomatch marked
    | degenerateAlphabet symbol =>
      cases e' with
      | degenerateAlphabet symbol' => exact .inl (congrArg _ (degenerateAlphabet_message_inj.mp same))
      | _ => nomatch marked
    | noInitialState =>
      cases e' with
      | noInitialState => exact .inl rfl
      | _ => nomatch marked
    | missingTransition state symbol =>
      cases e' with
      | missingTransition state' symbol' =>
        obtain ⟨rfl, rfl⟩ := missingTransition_message_inj.mp same
        exact .inl rfl
      | _ => nomatch marked
    | stateNotFound h =>
      cases e' with
      | stateNotFound g => exact .inr ⟨h, g, rfl, rfl, stateNotFound_message_inj.mp same⟩
      | _ => nomatch marked
    | emptyStateName =>
      cases e' with
      | emptyStateName => exact .inl rfl
      | _ => nomatch marked
    | duplicateStateName name =>
      cases e' with
      | duplicateStateName name' => exact .inl (congrArg _ (duplicateStateName_message_inj.mp same))
      | _ => nomatch marked
    | tooManyStates =>
      cases e' with
      | tooManyStates => exact .inl rfl
      | _ => nomatch marked
  · rintro (rfl | ⟨h, g, rfl, rfl, index⟩)
    · rfl
    · exact stateNotFound_message_inj.mpr index

end Error
end BinaryAutomata
