import BinaryAutomata.Edit

/-! Several automata side by side. A clone joins the family of the automaton it copies, so each
accepts the handles issued before the copy, and indices are drawn from one supply, so later
ones never collide. -/
namespace BinaryAutomata

structure Member where
  family : Nat
  automaton : Automaton
  deriving DecidableEq

/-- The automata in the order in which they were made, and for each family the index that it
issues next. -/
structure Session where
  members : Array Member
  supplies : Array Nat
  deriving DecidableEq

namespace Session

def empty : Session := ⟨#[], #[]⟩

inductive Op where
  | found (alphabet : Alphabet)
  | clone (number : Nat)
  | edit (number : Nat) (edit : Edit)
  deriving DecidableEq

def automaton? (session : Session) (number : Nat) : Option Automaton :=
  (session.members[number]?).map (·.automaton)

def supply (session : Session) (family : Nat) : Nat := session.supplies[family]?.getD 0

/-- Makes an automaton without states. Tags are 32-bit words, so that of a new family is fresh
only while there are fewer than that. -/
def found (session : Session) (alphabet : Alphabet) : Session where
  members := session.members.push
    ⟨session.supplies.size, .empty (UInt32.ofNat session.supplies.size) alphabet⟩
  supplies := session.supplies.push 0

/-- Keeps what a successful edit of the member `number` left; an issued index is used up. -/
def commit (session : Session) (number : Nat) (member : Member) (d : Automaton) (reply : Reply) :
    Session where
  members := session.members.setIfInBounds number { member with automaton := d }
  supplies := match reply with
    | .issued h => session.supplies.setIfInBounds member.family (h.index + 1)
    | _ => session.supplies

/-- Carries out an operation, or nothing if it names no automaton. A failed edit changes nothing. -/
def perform? (session : Session) : Op → Option (Session × Report Reply)
  | .found alphabet => some (session.found alphabet, pure (.created session.members.size))
  | .clone number => (session.members[number]?).map fun member =>
      ({ session with members := session.members.push member }, pure (.created session.members.size))
  | .edit number edit => (session.members[number]?).map fun member =>
      let report := member.automaton.edit (session.supply member.family) edit
      match report.result with
      | .error e => (session, ⟨report.events, .error e⟩)
      | .ok (d, reply) => (session.commit number member d reply, ⟨report.events, .ok reply⟩)

end Session
end BinaryAutomata
