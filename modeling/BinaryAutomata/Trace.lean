import BinaryAutomata.StateId

/-! The states a word leads through, each with the name it had when it was visited. -/
namespace BinaryAutomata

structure Visit where
  id : StateId
  name : String
  deriving DecidableEq

structure Trace where
  visits : List Visit
  deriving DecidableEq

namespace Trace

def empty : Trace := ⟨[]⟩

/-- The same trace, entered through one more state. -/
def after (trace : Trace) (visit : Visit) : Trace := ⟨visit :: trace.visits⟩

def length (trace : Trace) : Nat := trace.visits.length

def isEmpty (trace : Trace) : Bool := trace.visits.isEmpty

def states (trace : Trace) : List StateId := trace.visits.map (·.id)

def names (trace : Trace) : List String := trace.visits.map (·.name)

def last? (trace : Trace) : Option StateId := trace.states.getLast?

def text (trace : Trace) : String := " --> ".intercalate trace.names

end Trace
end BinaryAutomata
