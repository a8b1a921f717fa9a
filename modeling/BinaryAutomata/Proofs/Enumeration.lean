import BinaryAutomata.Proofs.Listing
import BinaryAutomata.Proofs.Naming

/-! The slots of the live states, two of each. Edges and holes are listed by going through them in
order, and each is either a hole or has an edge whose target is live. -/
namespace BinaryAutomata.Automaton

/-- The slots of the live states, by ascending state and `a` before `b`. -/
def slots (d : Automaton) : List (StateId × Symbol) :=
  (d.states.map (·.id)).flatMap fun h => Symbol.all.map (h, ·)

/-- The first slot has the smaller index, or the same and the smaller symbol. -/
def SlotBefore (first second : StateId × Symbol) : Prop :=
  first.1.index < second.1.index ∨ first.1.index = second.1.index ∧ first.2 < second.2

variable {d : Automaton}

theorem SlotBefore.ne {first second : StateId × Symbol} (before : SlotBefore first second) :
    first ≠ second := by
  rintro rfl
  obtain less | ⟨_, less⟩ := before
  · exact Nat.lt_irrefl _ less
  · exact Nat.lt_irrefl _ less

theorem pairwise_slots (d : Automaton) : d.slots.Pairwise SlotBefore := by
  refine List.pairwise_flatMap.mpr ⟨?_, d.pairwise_state_ids.imp ?_⟩
  · intro h _
    have ordered : Symbol.all.Pairwise (· < ·) := by decide
    exact List.pairwise_map.mpr (ordered.imp fun less => .inr ⟨rfl, less⟩)
  · intro g h less slot ofG slot' ofH
    obtain ⟨s, _, rfl⟩ := List.mem_map.mp ofG
    obtain ⟨t, _, rfl⟩ := List.mem_map.mp ofH
    exact .inl less

theorem length_slots (d : Automaton) : d.slots.length = 2 * d.states.length := by
  simp [slots, List.length_flatMap, Symbol.all, Function.comp_def, List.map_const', Nat.mul_comm]

theorem holes_eq_filter (d : Automaton) :
    d.holes = d.slots.filter fun slot => (d.leadsTo? slot.1 slot.2).isNone := by
  rw [holes_eq, slots, List.filter_flatMap]
  simp only [List.filter_map]
  rfl

theorem transitions_eq_filterMap (d : Automaton) : d.transitions =
    d.slots.filterMap fun slot => (d.transition? slot.1 slot.2).map (slot.1, slot.2, ·) := by
  rw [transitions_eq, slots, List.filterMap_flatMap]
  simp only [List.filterMap_map]
  rfl

/-- The edges that can be followed are those of the slots that lead somewhere. -/
theorem live_transitions_eq (d : Automaton) :
    (d.transitions.filter fun edge => d.contains edge.2.2) =
      d.slots.filterMap fun slot => (d.leadsTo? slot.1 slot.2).map (slot.1, slot.2, ·) := by
  rw [transitions_eq_filterMap, List.filter_filterMap]
  refine List.filterMap_congr fun slot _ => ?_
  rw [leadsTo?, Option.filter_map]
  rfl

theorem pairwise_holes (d : Automaton) : d.holes.Pairwise SlotBefore := by
  rw [holes_eq_filter]
  exact d.pairwise_slots.filter _

theorem pairwise_transitions (d : Automaton) :
    d.transitions.Pairwise fun first second =>
      SlotBefore (first.1, first.2.1) (second.1, second.2.1) := by
  rw [transitions_eq_filterMap]
  refine d.pairwise_slots.filterMap _ fun slot slot' before edge ofSlot edge' ofSlot' => ?_
  obtain ⟨_, _, rfl⟩ := Option.map_eq_some_iff.mp ofSlot
  obtain ⟨_, _, rfl⟩ := Option.map_eq_some_iff.mp ofSlot'
  exact before

/-- A slot leads somewhere or it does not, so the holes and the edges with live targets are as many as
the slots. -/
theorem length_holes_add (d : Automaton) :
    d.holes.length + (d.transitions.filter fun edge => d.contains edge.2.2).length =
      2 * d.states.length := by
  rw [← d.length_slots, holes_eq_filter, live_transitions_eq, ← List.countP_eq_length_filter,
    List.length_filterMap_eq_countP,
    List.length_eq_countP_add_countP fun slot => (d.leadsTo? slot.1 slot.2).isNone]
  congr 1
  refine List.countP_congr fun slot _ => ?_
  cases d.leadsTo? slot.1 slot.2 <;> simp

theorem hole_iff_unset_or_dangling : d.Hole h s ↔ d.transition? h s = none ∨
    ∃ target, d.transition? h s = some target ∧ d.contains target = false := by
  cases edge : d.transition? h s <;> simp [Hole, edge]

theorem live_of_transition? (edge : d.transition? h s = some target) : d.contains h = true := by
  obtain ⟨q, live, _⟩ := Option.bind_eq_some_iff.mp edge
  exact contains_iff.mpr ⟨q, live⟩

/-- The listed edges are those that are set, the listed holes the slots of live states that are unset or
dangle, each by ascending state and symbol and none twice. Every slot of a live state is either a hole or
has an edge to a live target, which makes two for each state; what is a hole and has an edge dangles. -/
theorem holes_complement_edges (arises : d.Arises) :
    (∀ h s target, (h, s, target) ∈ d.transitions ↔
      d.contains h = true ∧ d.transition? h s = some target) ∧
    (∀ h s, (h, s) ∈ d.holes ↔ d.contains h = true ∧ (d.transition? h s = none ∨
      ∃ target, d.transition? h s = some target ∧ d.contains target = false)) ∧
    (d.transitions.map fun edge => (edge.1, edge.2.1)).Pairwise SlotBefore ∧
    d.holes.Pairwise SlotBefore ∧ d.transitions.Nodup ∧ d.holes.Nodup ∧
    (∀ h s, d.contains h = true → ((h, s) ∈ d.holes ↔
      ¬ ∃ target, (h, s, target) ∈ d.transitions ∧ d.contains target = true)) ∧
    d.holes.length + (d.transitions.filter fun edge => d.contains edge.2.2).length = 2 * d.size ∧
    ∀ h s target, (h, s) ∈ d.holes ∧ (h, s, target) ∈ d.transitions ↔
      d.transition? h s = some target ∧ d.contains target = false := by
  refine ⟨?_, ?_, List.pairwise_map.mpr d.pairwise_transitions, d.pairwise_holes, ?_,
    d.pairwise_holes.imp SlotBefore.ne, ?_, ?_, ?_⟩
  · intro h s target
    rw [mem_transitions]
    exact ⟨fun edge => ⟨live_of_transition? edge, edge⟩, And.right⟩
  · intro h s
    rw [mem_holes, hole_iff_unset_or_dangling]
  · refine d.pairwise_transitions.imp fun before same => ?_
    exact before.ne (same ▸ rfl)
  · intro h s live
    rw [mem_holes, and_iff_right live, ← not_iff_not, not_hole_iff, not_not]
    simp only [mem_transitions]
  · rw [arises.coherent.size_eq_length_states]
    exact d.length_holes_add
  · intro h s target
    rw [mem_holes, mem_transitions]
    constructor
    · rintro ⟨⟨_, hole⟩, edge⟩
      exact ⟨edge, hole target edge⟩
    · rintro ⟨edge, gone⟩
      refine ⟨⟨live_of_transition? edge, ?_⟩, edge⟩
      exact hole_iff_unset_or_dangling.mpr (.inr ⟨target, edge, gone⟩)

/-- Of the four slots of the sample one is unset and one dangles. -/
theorem sample_slots : sample.Arises ∧ sample.size = 2 ∧
    sample.holes = [(⟨0, 0⟩, .b), (⟨0, 3⟩, .a)] ∧
    (sample.transitions.filter fun edge => sample.contains edge.2.2).length = 2 ∧
    (⟨0, 0⟩, .b, ⟨0, 1⟩) ∈ sample.transitions := by
  obtain ⟨_, _, _, _, _, _, _, counts, dangling⟩ := holes_complement_edges sample_arises
  have size : sample.size = 2 := rfl
  have holes : sample.holes = [(⟨0, 0⟩, .b), (⟨0, 3⟩, .a)] := by decide +kernel
  rw [holes, size] at counts
  exact ⟨sample_arises, size, holes, Nat.add_left_cancel counts,
    ((dangling ⟨0, 0⟩ .b ⟨0, 1⟩).mpr ⟨rfl, rfl⟩).2⟩

end BinaryAutomata.Automaton
