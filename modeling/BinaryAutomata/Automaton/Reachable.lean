import BinaryAutomata.Automaton.Edges
import BinaryAutomata.StateSet

/-! The states the initial state leads to, by breadth-first search. A state is marked when it
leaves the queue, so the queue may hold it more than once. -/
namespace BinaryAutomata

structure Search where
  marked : StateSet
  queue : List StateId

namespace Automaton

/-- The live targets of a live state, `a` before `b`. -/
def successors (d : Automaton) (h : StateId) : List StateId :=
  match d.find? h with
  | none => []
  | some q => Symbol.all.filterMap fun s => (d.follow? q s).map (·.1)

/-- Takes the first state off the queue. If it is new, marks it and queues its unmarked targets. -/
def turn (d : Automaton) (search : Search) : Search :=
  match search.queue with
  | [] => search
  | h :: rest =>
    if search.marked.contains h then { search with queue := rest }
    else
      let marked := search.marked.insert h
      ⟨marked, rest ++ (d.successors h).filter fun target => !marked.contains target⟩

def turns (d : Automaton) : Nat → Search → Search
  | 0, search => search
  | n + 1, search => d.turns n (d.turn search)

def searchStart (d : Automaton) : Search :=
  ⟨.withCapacity d.tag d.arena.size, d.initial.toList⟩

/-- Each slot is marked at most once and then queues at most two targets, so the queue is empty
after two turns a slot and one for the initial state. -/
def reachable (d : Automaton) : StateSet :=
  (d.turns (2 * d.arena.size + 1) d.searchStart).marked

/-- Whether no final state can be reached, that is, no word is accepted. -/
def isEmpty (d : Automaton) : Bool :=
  let reached := d.reachable
  !d.finals.any reached.contains

end Automaton
end BinaryAutomata
