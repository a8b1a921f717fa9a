import BinaryAutomata.Alphabet.Basic
import BinaryAutomata.Arena
import BinaryAutomata.NameIndex

/-! Deterministic automata over two symbols, and what can be asked of their states. A handle
is live where its own family's tag meets a filled slot; an edge may outlive its target. -/
namespace BinaryAutomata

structure State where
  name : String
  onA : Option StateId
  onB : Option StateId
  deriving DecidableEq

namespace State

def on (q : State) : Symbol → Option StateId
  | .a => q.onA
  | .b => q.onB

def redirect (q : State) (s : Symbol) (target : Option StateId) : State :=
  match s with
  | .a => { q with onA := target }
  | .b => { q with onB := target }

theorem on_redirect (q : State) (s t : Symbol) (target : Option StateId) :
    (q.redirect s target).on t = if t = s then target else q.on t := by
  cases s <;> cases t <;> rfl

@[simp] theorem name_redirect (q : State) (s : Symbol) (target : Option StateId) :
    (q.redirect s target).name = q.name := by cases s <;> rfl

end State

/-- Final states are kept in the order in which they took the role. -/
structure Automaton where
  tag : FamilyTag
  alphabet : Alphabet
  arena : Arena State
  names : NameIndex
  initial : Option StateId
  finals : List StateId
  deriving DecidableEq

/-- A state as a reader sees it, with its handle and its roles. -/
structure StateView where
  id : StateId
  state : State
  isInitial : Bool
  isFinal : Bool
  deriving DecidableEq

namespace Automaton

def empty (tag : FamilyTag) (alphabet : Alphabet) : Automaton :=
  ⟨tag, alphabet, .empty, .empty, none, []⟩

def find? (d : Automaton) (h : StateId) : Option State :=
  if h.owner = d.tag then d.arena.get? h.index else none

def contains (d : Automaton) (h : StateId) : Bool := (d.find? h).isSome

/-- Number of live states. -/
def size (d : Automaton) : Nat := d.names.size

def isInitial (d : Automaton) (h : StateId) : Bool := d.initial = some h

def isFinal (d : Automaton) (h : StateId) : Bool := d.finals.contains h

def view (d : Automaton) (h : StateId) (q : State) : StateView := ⟨h, q, d.isInitial h, d.isFinal h⟩

def state? (d : Automaton) (h : StateId) : Option StateView := (d.find? h).map (d.view h)

def stateNamed? (d : Automaton) (name : String) : Option StateId := d.names.find? name

/-- The live states in the order in which they were added. -/
def states (d : Automaton) : List StateView :=
  d.arena.entries.map fun entry => d.view ⟨d.tag, entry.1⟩ entry.2

def initialState? (d : Automaton) : Option StateView := d.initial.bind d.state?

def initialName? (d : Automaton) : Option String := d.initialState?.map (·.state.name)

def finalStates (d : Automaton) : List StateView := d.finals.filterMap d.state?

def finalNames (d : Automaton) : List String := d.finalStates.map (·.state.name)

end Automaton
end BinaryAutomata
