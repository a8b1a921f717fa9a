import BinaryAutomata.Error.Basic

/-! Building alphabets and reading words. A word is read whole or not at all: the first
character that spells no symbol is the one reported, counted in characters. -/
namespace BinaryAutomata.Alphabet

def create (onA onB : Char) : Except Error Alphabet :=
  if same : onA = onB then .error (.degenerateAlphabet onA) else .ok ⟨onA, onB, same⟩

/-- Reads characters whose first stands at `position` of the input. -/
def parseFrom (alphabet : Alphabet) (position : Nat) : List Char → Except Error (List Symbol)
  | [] => .ok []
  | c :: rest => match alphabet.symbolOf? c with
    | none => .error (.invalidSymbol c position alphabet)
    | some s => (alphabet.parseFrom (position + 1) rest).map (s :: ·)

def parse (alphabet : Alphabet) (input : String) : Except Error (List Symbol) :=
  alphabet.parseFrom 0 input.toList

theorem parseFrom_spelled (alphabet : Alphabet) (word : List Symbol) (position : Nat) :
    alphabet.parseFrom position (word.map alphabet.charOf) = .ok word := by
  induction word generalizing position with
  | nil => rfl
  | cons s word ih => simp [parseFrom, symbolOf?_charOf, ih, Except.map]

theorem parse_spell (alphabet : Alphabet) (word : List Symbol) :
    alphabet.parse (alphabet.spell word) = .ok word := by
  simp [parse, spell, parseFrom_spelled]

theorem parseFrom_eq_ok_iff {alphabet : Alphabet} {chars : List Char} :
    alphabet.parseFrom position chars = .ok word ↔ chars = word.map alphabet.charOf := by
  constructor
  · intro read
    induction chars generalizing position word with
    | nil =>
      cases read
      rfl
    | cons c rest ih =>
      unfold parseFrom at read
      split at read
      · contradiction
      · rename_i s spelled
        cases later : alphabet.parseFrom (position + 1) rest with
        | error cause =>
          rw [later] at read
          contradiction
        | ok word' =>
          rw [later] at read
          cases read
          rw [ih later, symbolOf?_eq_some_iff.mp spelled, List.map_cons]
  · rintro rfl
    exact alphabet.parseFrom_spelled word position

theorem parse_eq_ok_iff {alphabet : Alphabet} {input : String} :
    alphabet.parse input = .ok word ↔ input.toList = word.map alphabet.charOf := parseFrom_eq_ok_iff

/-- Reading has one way to fail. -/
theorem parseFrom_eq_error {alphabet : Alphabet} {chars : List Char}
    (refused : alphabet.parseFrom position chars = .error cause) :
    ∃ c i, cause = .invalidSymbol c i alphabet := by
  induction chars generalizing position with
  | nil => contradiction
  | cons c rest ih =>
    unfold parseFrom at refused
    split at refused
    · cases refused
      exact ⟨c, position, rfl⟩
    · cases later : alphabet.parseFrom (position + 1) rest with
      | error cause' =>
        rw [later] at refused
        cases refused
        exact ih later
      | ok word =>
        rw [later] at refused
        contradiction

end BinaryAutomata.Alphabet
