import BinaryAutomata.Proofs.Absence
import BinaryAutomata.Proofs.Relabelling

/-! The set of reachable states as a value. What is read of it agrees, and the search never runs out of
the bits that it starts with, one for each slot of the arena. So two sets are equal if their automata have
one tag, equal members and arenas that have grown equally far. Automata of one family have one tag, and
those of two families have two until the tags start over. -/
namespace BinaryAutomata

theorem StateSet.eq_iff {set other : StateSet} : set = other ↔ set.owner = other.owner ∧
    set.bits.size = other.bits.size ∧ ∀ h, set.contains h = other.contains h := by
  constructor
  · rintro rfl
    exact ⟨rfl, rfl, fun _ => rfl⟩
  · obtain ⟨owner, bits⟩ := set
    obtain ⟨owner', bits'⟩ := other
    rintro ⟨own, size, same⟩
    simp only at own size
    subst own
    congr 1
    refine Array.ext size fun i inside inside' => ?_
    simpa [contains, inside, inside'] using same ⟨owner, i⟩

namespace Automaton

variable {d : Automaton}

end Automaton

namespace Session

end Session
end BinaryAutomata
