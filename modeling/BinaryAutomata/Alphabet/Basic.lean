import BinaryAutomata.Symbol

/-! An alphabet names the two distinct characters that spell the symbols.
Reading a character inverts spelling a symbol. -/
namespace BinaryAutomata

structure Alphabet where
  onA : Char
  onB : Char
  distinct : onA ≠ onB
  deriving DecidableEq

namespace Alphabet

/-- The alphabet of an automaton that was given none. -/
def standard : Alphabet := ⟨'a', 'b', by decide⟩

def charOf (alphabet : Alphabet) : Symbol → Char
  | .a => alphabet.onA
  | .b => alphabet.onB

def symbolOf? (alphabet : Alphabet) (c : Char) : Option Symbol :=
  if c = alphabet.onA then some .a else if c = alphabet.onB then some .b else none

theorem symbolOf?_charOf (alphabet : Alphabet) (s : Symbol) :
    alphabet.symbolOf? (alphabet.charOf s) = some s := by
  cases s <;> simp [symbolOf?, charOf, alphabet.distinct.symm]

theorem symbolOf?_eq_some_iff {alphabet : Alphabet} :
    alphabet.symbolOf? c = some s ↔ c = alphabet.charOf s := by
  constructor
  · intro read
    unfold symbolOf? at read
    split at read
    · cases read; assumption
    · split at read
      · cases read; assumption
      · contradiction
  · rintro rfl; exact alphabet.symbolOf?_charOf s

theorem charOf_injective {alphabet : Alphabet} (same : alphabet.charOf s = alphabet.charOf t) :
    s = t :=
  Option.some.inj ((alphabet.symbolOf?_charOf s).symm.trans (same ▸ alphabet.symbolOf?_charOf t))

/-- Both characters unquoted, as the error texts name an alphabet. -/
def text (alphabet : Alphabet) : String :=
  String.singleton alphabet.onA ++ " and " ++ String.singleton alphabet.onB

def spell (alphabet : Alphabet) (word : List Symbol) : String :=
  String.ofList (word.map alphabet.charOf)

end Alphabet
end BinaryAutomata
