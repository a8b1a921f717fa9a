import BinaryAutomata.Error.Basic
import BinaryAutomata.Text.Quoted

/-! The wording of each cause. Offending characters are quoted, names and alphabets are not. -/
namespace BinaryAutomata

open Text in
def Error.message : Error → String
  | .invalidSymbol found position alphabet =>
      "the alphabet of this DFA is " ++ alphabet.text ++ " only (found " ++ quoted found ++
        " at position " ++ toString position ++ ")"
  | .degenerateAlphabet symbol =>
      "alphabet needs two distinct symbols (got " ++ quoted symbol ++ " twice)"
  | .noInitialState => "no initial state set"
  | .missingTransition state symbol => "state " ++ state ++ " has no transition on " ++ quoted symbol
  | .stateNotFound id => "state " ++ id.text ++ " not found in this automaton"
  | .emptyStateName => "state name cannot be empty"
  | .duplicateStateName name => "a state named " ++ name ++ " already exists"
  | .tooManyStates => "automaton cannot hold more than u32::MAX states"

end BinaryAutomata
