/-! Edits that find nothing to do. They are no errors: the automaton stays as it is
and the outcome says why. -/
namespace BinaryAutomata

inductive Notice where
  | alreadyInitial
  | alreadyFinal
  | stateNotFound
  deriving DecidableEq

def Notice.message : Notice → String
  | .alreadyInitial => "state is already the initial state"
  | .alreadyFinal => "state is already a final state"
  | .stateNotFound => "state not found in the automaton"

inductive Outcome where
  | applied
  | unchanged (notice : Notice)
  deriving DecidableEq

def Outcome.notice? : Outcome → Option Notice
  | .applied => none
  | .unchanged notice => some notice

end BinaryAutomata
