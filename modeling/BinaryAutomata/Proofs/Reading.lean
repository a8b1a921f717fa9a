import BinaryAutomata.Proofs.WalkLog

/-! Reading undoes spelling. The inputs that can be read are those that some word spells, and any other
is refused for its first foreign character, before the automaton is looked at. -/
namespace BinaryAutomata
namespace Alphabet

/-- The character spells no symbol. -/
def Foreign (alphabet : Alphabet) (c : Char) : Prop := c ≠ alphabet.onA ∧ c ≠ alphabet.onB

/-- At `position`, counted in characters, stands `found`, which is foreign, and nothing foreign stands
before it. -/
structure FirstForeign (alphabet : Alphabet) (chars : List Char) (position : Nat) (found : Char) :
    Prop where
  there : chars[position]? = some found
  foreign : alphabet.Foreign found
  least : ∀ i < position, ∀ c, chars[i]? = some c → ¬ alphabet.Foreign c

variable {alphabet : Alphabet} {chars : List Char} {c found : Char}

theorem symbolOf?_eq_none_iff : alphabet.symbolOf? c = none ↔ alphabet.Foreign c := by
  unfold symbolOf? Foreign
  split
  · simp [*]
  · split <;> simp [*]

theorem firstForeign_of_foreign (foreign : alphabet.Foreign c) :
    alphabet.FirstForeign (c :: chars) position found ↔ position = 0 ∧ found = c := by
  constructor
  · intro first
    cases position with
    | zero => exact ⟨rfl, (Option.some.inj first.there).symm⟩
    | succ i => exact absurd foreign (first.least 0 (Nat.succ_pos i) c rfl)
  · rintro ⟨rfl, rfl⟩
    exact ⟨rfl, foreign, fun i before => absurd before (Nat.not_lt_zero i)⟩

theorem firstForeign_of_spells (spells : ¬ alphabet.Foreign c) :
    alphabet.FirstForeign (c :: chars) position found ↔
      ∃ i, position = i + 1 ∧ alphabet.FirstForeign chars i found := by
  constructor
  · intro first
    cases position with
    | zero => exact absurd first.foreign (Option.some.inj first.there ▸ spells)
    | succ i =>
      refine ⟨i, rfl, first.there, first.foreign, fun j before x held => ?_⟩
      exact first.least (j + 1) (Nat.succ_lt_succ before) x held
  · rintro ⟨i, rfl, first⟩
    refine ⟨first.there, first.foreign, ?_⟩
    intro j before x held
    cases j with
    | zero => exact Option.some.inj held ▸ spells
    | succ j => exact first.least j (Nat.lt_of_succ_lt_succ before) x held

theorem parseFrom_eq_error_iff : alphabet.parseFrom start chars = .error cause ↔
    ∃ i found, alphabet.FirstForeign chars i found ∧
      cause = .invalidSymbol found (start + i) alphabet := by
  induction chars generalizing start with
  | nil =>
    constructor
    · intro refused
      contradiction
    · rintro ⟨i, found, first, _⟩
      exact absurd first.there (by simp)
  | cons c rest ih =>
    cases read : alphabet.symbolOf? c with
    | none =>
      have foreign := symbolOf?_eq_none_iff.mp read
      simp [parseFrom, read, firstForeign_of_foreign foreign, eq_comm]
    | some s =>
      have spells : ¬ alphabet.Foreign c := by simp [← symbolOf?_eq_none_iff, read]
      have passed : alphabet.parseFrom start (c :: rest) = .error cause ↔
          alphabet.parseFrom (start + 1) rest = .error cause := by
        simp only [parseFrom, read]
        cases alphabet.parseFrom (start + 1) rest <;> simp [Except.map]
      rw [passed, ih]
      simp only [firstForeign_of_spells spells]
      constructor
      · rintro ⟨i, found, first, rfl⟩
        exact ⟨i + 1, found, ⟨i, rfl, first⟩, by rw [Nat.add_assoc, Nat.add_comm 1]⟩
      · rintro ⟨_, found, ⟨i, rfl, first⟩, rfl⟩
        exact ⟨i, found, first, by rw [Nat.add_assoc, Nat.add_comm 1]⟩

theorem parse_eq_error_iff {input : String} : alphabet.parse input = .error cause ↔
    ∃ i found, alphabet.FirstForeign input.toList i found ∧
      cause = .invalidSymbol found i alphabet := by
  simp [parse, parseFrom_eq_error_iff]

theorem eq_spell_iff {input : String} :
    input = alphabet.spell word ↔ input.toList = word.map alphabet.charOf := by
  rw [spell, ← String.toList_inj, String.toList_ofList]

theorem exists_firstForeign {input : String} (member : c ∈ input.toList)
    (foreign : alphabet.Foreign c) : ∃ i found, alphabet.FirstForeign input.toList i found := by
  cases read : alphabet.parse input with
  | error cause =>
    obtain ⟨i, found, first, _⟩ := parse_eq_error_iff.mp read
    exact ⟨i, found, first⟩
  | ok word =>
    rw [parse_eq_ok_iff.mp read] at member
    obtain ⟨s, _, rfl⟩ := List.mem_map.mp member
    rw [← symbolOf?_eq_none_iff, symbolOf?_charOf] at foreign
    contradiction

/-- An input can be read exactly if a word spells it, and is read as that word; otherwise it is refused
for its first foreign character. So an automaton runs an input as the word that it spells, and one with a
foreign character fails for the first of them, whatever states and edges there are. -/
theorem parse_inverts_spell (alphabet : Alphabet) (input : String) :
    (∀ word, alphabet.parse input = .ok word ↔ input = alphabet.spell word) ∧
    (∀ cause, alphabet.parse input = .error cause ↔
      ∃ i found, alphabet.FirstForeign input.toList i found ∧
        cause = .invalidSymbol found i alphabet) ∧
    ((∃ c ∈ input.toList, alphabet.Foreign c) →
      ∃ i found, alphabet.FirstForeign input.toList i found) ∧
    ∀ d : Automaton, d.alphabet = alphabet →
      (∀ word, d.evaluate (alphabet.spell word) = d.evaluateSymbols word) ∧
      ∀ i found, alphabet.FirstForeign input.toList i found →
        d.evaluate input = .fail (.invalidSymbol found i alphabet) := by
  refine ⟨?_, fun _ => parse_eq_error_iff, ?_, ?_⟩
  · intro word
    rw [eq_spell_iff, parse_eq_ok_iff]
  · rintro ⟨c, member, foreign⟩
    exact exists_firstForeign member foreign
  · rintro d rfl
    refine ⟨d.evaluate_spell, ?_⟩
    intro i found first
    exact Automaton.evaluate_of_unread (parse_eq_error_iff.mpr ⟨i, found, first, rfl⟩)

/-- An automaton without edges would stop at the first character of an input, and it is for the second,
the third of its bytes, that the input is refused. -/
theorem foreign_before_hole : ∃ d : Automaton, d.Arises ∧ d.alphabet = ⟨'é', 'b', by decide⟩ ∧
    (d.evaluateSymbols [.a]).result = .error (.missingTransition "p" 'é') ∧
    d.evaluate "éx" = .fail (.invalidSymbol 'x' 1 d.alphabet) := by
  have first : FirstForeign ⟨'é', 'b', by decide⟩ "éx".toList 1 'x' := by
    refine ⟨rfl, ⟨by decide, by decide⟩, ?_⟩
    intro i before c held foreign
    obtain rfl : i = 0 := by omega
    exact foreign.1 (Option.some.inj held).symm
  refine ⟨⟨0, ⟨'é', 'b', by decide⟩, ⟨#[some ⟨"p", none, none⟩]⟩, ⟨[("p", ⟨0, 0⟩)]⟩, some ⟨0, 0⟩, []⟩,
    Automaton.arises_of_replay [.found ⟨'é', 'b', by decide⟩,
      .edit 0 (.add ⟨"p", none, none, true, false⟩)] 0 rfl, rfl, rfl, ?_⟩
  exact ((parse_inverts_spell ⟨'é', 'b', by decide⟩ "éx").2.2.2 _ rfl).2 1 'x' first

end Alphabet
end BinaryAutomata
