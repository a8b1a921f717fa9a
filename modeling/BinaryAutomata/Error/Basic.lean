import BinaryAutomata.Alphabet.Basic
import BinaryAutomata.StateId

/-! The causes that stop an operation. -/
namespace BinaryAutomata

inductive Error where
  | invalidSymbol (found : Char) (position : Nat) (alphabet : Alphabet)
  | degenerateAlphabet (symbol : Char)
  | noInitialState
  | missingTransition (state : String) (symbol : Char)
  | stateNotFound (id : StateId)
  | emptyStateName
  | duplicateStateName (name : String)
  | tooManyStates
  deriving DecidableEq

end BinaryAutomata
