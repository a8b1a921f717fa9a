import BinaryAutomata.Automaton.Edges
import BinaryAutomata.Proofs.Bookkeeping
import Mathlib.Data.List.Sort

/-! What a reader is shown. Wherever the view of a state is had from, it is the one that its handle
gives; and a hole is listed for every slot of a live state that is unset or dangles. -/
namespace BinaryAutomata.Automaton

variable {d : Automaton}

theorem isFinal_iff : d.isFinal h = true ↔ h ∈ d.finals := by simp [isFinal]

theorem isInitial_iff : d.isInitial h = true ↔ d.initial = some h := by simp [isInitial]

theorem state?_eq_some_iff :
    d.state? h = some v ↔ ∃ q, d.find? h = some q ∧ v = d.view h q := by
  simp [state?, eq_comm (b := v)]

theorem state?_of_live (live : d.find? h = some q) : d.state? h = some (d.view h q) :=
  state?_eq_some_iff.mpr ⟨q, live, rfl⟩

theorem id_of_state? (seen : d.state? h = some v) : v.id = h := by
  obtain ⟨_, _, rfl⟩ := state?_eq_some_iff.mp seen
  rfl

theorem mem_states : v ∈ d.states ↔ d.state? v.id = some v := by
  simp only [states, List.mem_map, Prod.exists, Arena.mem_entries, state?_eq_some_iff]
  constructor
  · rintro ⟨i, q, held, rfl⟩
    exact ⟨q, by simpa [find?, view] using held, rfl⟩
  · rintro ⟨q, live, same⟩
    obtain ⟨own, held⟩ := Option.ite_none_right_eq_some.mp live
    exact ⟨v.id.index, q, held, by rw [← own]; exact same.symm⟩

theorem view_mem_states (live : d.find? h = some q) : d.view h q ∈ d.states :=
  mem_states.mpr (state?_of_live live)

theorem mem_state_ids : h ∈ d.states.map (·.id) ↔ d.contains h = true := by
  rw [List.mem_map, contains_iff]
  constructor
  · rintro ⟨v, listed, rfl⟩
    obtain ⟨q, live, _⟩ := state?_eq_some_iff.mp (mem_states.mp listed)
    exact ⟨q, live⟩
  · rintro ⟨q, live⟩
    exact ⟨d.view h q, view_mem_states live, rfl⟩

theorem pairwise_state_ids (d : Automaton) :
    (d.states.map (·.id)).Pairwise fun g h => g.index < h.index := by
  simp only [states, List.map_map, List.pairwise_map]
  exact d.arena.pairwise_entries

/-- Two listings of states by ascending index are equal if they list the same states. -/
theorem eq_of_listed {left right : List StateId} (first : left.Pairwise fun g h => g.index < h.index)
    (second : right.Pairwise fun g h => g.index < h.index) (same : ∀ h, h ∈ left ↔ h ∈ right) :
    left = right := by
  have : Std.Irrefl fun g h : StateId => g.index < h.index := ⟨fun _ => Nat.lt_irrefl _⟩
  have : Std.Antisymm fun g h : StateId => g.index < h.index :=
    ⟨fun _ _ less more => absurd more (Nat.lt_asymm less)⟩
  exact first.eq_of_mem_iff second same

theorem filterMap_state_ids (d : Automaton) : (d.states.map (·.id)).filterMap d.state? = d.states := by
  rw [List.filterMap_map]
  have seen : ∀ v ∈ d.states, (d.state? ∘ (·.id)) v = some v := fun v => mem_states.mp
  rw [List.filterMap_congr seen, List.filterMap_some]

theorem mem_finalStates : v ∈ d.finalStates ↔ v.id ∈ d.finals ∧ d.state? v.id = some v := by
  simp only [finalStates, List.mem_filterMap]
  constructor
  · rintro ⟨h, final, seen⟩
    cases id_of_state? seen
    exact ⟨final, seen⟩
  · rintro ⟨final, seen⟩
    exact ⟨v.id, final, seen⟩

theorem initialState?_eq_some_iff :
    d.initialState? = some v ↔ d.initial = some v.id ∧ d.state? v.id = some v := by
  simp only [initialState?, Option.bind_eq_some_iff]
  constructor
  · rintro ⟨h, initial, seen⟩
    cases id_of_state? seen
    exact ⟨initial, seen⟩
  · rintro ⟨initial, seen⟩
    exact ⟨v.id, initial, seen⟩

namespace Coherent

theorem initialState?_id (coherent : d.Coherent) : d.initialState?.map (·.id) = d.initial := by
  cases initial : d.initial with
  | none => simp [initialState?, initial]
  | some h =>
    obtain ⟨q, live⟩ := contains_iff.mp (coherent.initial_live initial)
    simp [initialState?, initial, state?_of_live live, view]

/-- All final states are live, so none is left out of the listing. -/
theorem finalState_ids (coherent : d.Coherent) : d.finalStates.map (·.id) = d.finals := by
  have live : ∀ h ∈ d.finals, d.contains h = true := fun h => coherent.finals_live
  simp only [finalStates]
  generalize d.finals = finals at live
  induction finals with
  | nil => rfl
  | cons h finals ih =>
    obtain ⟨first, rest⟩ := List.forall_mem_cons.mp live
    obtain ⟨q, first⟩ := contains_iff.mp first
    simp [state?_of_live first, view, ih rest]

end Coherent
end BinaryAutomata.Automaton
