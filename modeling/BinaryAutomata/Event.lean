import BinaryAutomata.Evaluation
import BinaryAutomata.Notice
import BinaryAutomata.Symbol

/-! What an automaton logs. States are named as they are named at that moment; edge edits name
them by handle. -/
namespace BinaryAutomata

inductive Event where
  | addedState (name : String) (id : StateId)
  | removedState (name : String) (id : StateId)
  | clearedInitial (name : String)
  | becameInitial (name : String)
  | becameFinal (name : String)
  | connected (source : StateId) (symbol : Symbol) (target : StateId)
  | disconnected (source : StateId) (symbol : Symbol)
  | unknownState (id : StateId)
  | alreadyInitial (name : String)
  | alreadyFinal (name : String)
  | stepped (source target : String) (symbol : Char)
  | evaluated (symbols : Nat) (last : String) (verdict : Verdict)
  deriving DecidableEq

namespace Event

inductive Level where
  | trace
  | debug
  | warn
  deriving DecidableEq

def Level.name : Level → String
  | .trace => "TRACE"
  | .debug => "DEBUG"
  | .warn => "WARN"

def level : Event → Level
  | .connected .. | .disconnected .. | .stepped .. => .trace
  | .unknownState _ | .alreadyInitial _ | .alreadyFinal _ => .warn
  | _ => .debug

def message : Event → String
  | .addedState .. => "added state"
  | .removedState .. => "removed state"
  | .clearedInitial _ => "cleared initial state"
  | .becameInitial _ => "set initial state"
  | .becameFinal _ => "added final state"
  | .connected .. => "set transition"
  | .disconnected .. => "removed transition"
  | .unknownState _ => Notice.stateNotFound.message
  | .alreadyInitial _ => Notice.alreadyInitial.message
  | .alreadyFinal _ => Notice.alreadyFinal.message
  | .stepped .. => "step"
  | .evaluated .. => "evaluated input"

/-- The value of a field: all are texts but the number of symbols read. -/
inductive Value where
  | text (content : String)
  | count (number : Nat)
  deriving DecidableEq

def fields : Event → List (String × Value)
  | .addedState name id | .removedState name id => [("state", .text name), ("id", .text id.text)]
  | .clearedInitial name | .becameInitial name | .becameFinal name
  | .alreadyInitial name | .alreadyFinal name => [("state", .text name)]
  | .connected source symbol target =>
      [("from", .text source.text), ("to", .text target.text), ("symbol", .text symbol.name)]
  | .disconnected source symbol => [("state", .text source.text), ("symbol", .text symbol.name)]
  | .unknownState id => [("id", .text id.text)]
  | .stepped source target symbol =>
      [("from", .text source), ("to", .text target), ("symbol", .text (String.singleton symbol))]
  | .evaluated symbols last verdict =>
      [("symbols", .count symbols), ("last", .text last), ("verdict", .text verdict.text)]

/-- A line of the log. -/
structure Printed where
  level : Level
  message : String
  fields : List (String × Value)
  deriving DecidableEq

def printed (e : Event) : Printed := ⟨e.level, e.message, e.fields⟩

end Event
end BinaryAutomata
