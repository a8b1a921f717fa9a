import BinaryAutomata.Proofs.Naming
import BinaryAutomata.Proofs.Search
import Mathlib.Data.List.Perm.Subperm

/-! The test for emptiness is right: it fails exactly if some input is accepted. Then a short one is,
since a path that visits no state twice is no longer than there are live states. -/
namespace BinaryAutomata.Automaton

variable {d : Automaton}

theorem accepts_eq_true_iff : (d.accepts input).result = .ok true ↔
    ∃ word e, d.alphabet.parse input = .ok word ∧ (d.evaluateSymbols word).result = .ok e ∧
      e.verdict = .accepted := by
  simp only [accepts, evaluate, Report.map_eq_ok_iff, Report.bind_eq_ok_iff, Report.ofExcept,
    Evaluation.isAccepted, Verdict.isAccepted, decide_eq_true_eq]
  constructor
  · rintro ⟨e, ⟨word, read, evaluated⟩, accepted⟩
    exact ⟨word, e, read, evaluated, accepted⟩
  · rintro ⟨word, e, read, evaluated, accepted⟩
    exact ⟨e, ⟨word, read, evaluated⟩, accepted⟩

theorem isEmpty_eq_true_iff :
    d.isEmpty = true ↔ ∀ h ∈ d.finals, ¬ d.reachable.contains h = true := by
  simp [isEmpty]

namespace Coherent

theorem accepts_iff_walks (coherent : d.Coherent) : (d.accepts input).result = .ok true ↔
    ∃ word visited last, d.alphabet.parse input = .ok word ∧ d.Walks word visited last ∧
      last ∈ d.finals := by
  simp only [accepts_eq_true_iff, coherent.evaluateSymbols_eq_ok_iff]
  constructor
  · rintro ⟨word, _, read, ⟨visited, last, walks, rfl⟩, accepted⟩
    exact ⟨word, visited, last, read, walks,
      isFinal_iff.mp ((accepted_evaluation_iff d visited last).mp accepted)⟩
  · rintro ⟨word, visited, last, read, walks, final⟩
    exact ⟨word, _, read, ⟨visited, last, walks, rfl⟩,
      (accepted_evaluation_iff d visited last).mpr (isFinal_iff.mpr final)⟩

/-- The test depends on nothing but the verdicts that words have. -/
theorem isEmpty_iff_rejects (coherent : d.Coherent) : d.isEmpty = true ↔
    ∀ word e, (d.evaluateSymbols word).result = .ok e → e.verdict ≠ .accepted := by
  simp only [isEmpty_eq_true_iff, coherent.mem_reachable_iff, coherent.evaluateSymbols_eq_ok_iff]
  constructor
  · rintro none word _ ⟨visited, last, walks, rfl⟩ accepted
    have final := isFinal_iff.mp ((accepted_evaluation_iff d visited last).mp accepted)
    exact none last final ⟨word, visited, walks⟩
  · rintro rejects h final ⟨word, visited, walks⟩
    have accepted := (accepted_evaluation_iff d visited h).mpr (isFinal_iff.mpr final)
    exact rejects word _ ⟨visited, h, walks, rfl⟩ accepted

/-- Distinct live states are no more than there are states. -/
theorem length_le_size (coherent : d.Coherent) {handles : List StateId} (distinct : handles.Nodup)
    (live : ∀ h ∈ handles, d.contains h = true) : handles.length ≤ d.size := by
  have listed : handles ⊆ d.states.map (·.id) := fun h member => mem_state_ids.mpr (live h member)
  have bound := (List.subperm_of_subset distinct listed).length_le
  rwa [List.length_map, ← coherent.size_eq_length_states] at bound

theorem exists_short_walk (coherent : d.Coherent) (reached : d.Reached h) :
    ∃ word visited, d.Walks word visited h ∧ word.length < d.size := by
  obtain ⟨_, _, start, initial, path⟩ := reached
  obtain ⟨word, visited, path, distinct⟩ := path.exists_nodup
  have bound := coherent.length_le_size distinct path.visited_live
  exact ⟨word, visited, ⟨start, initial, path⟩, by rw [path.length_visited] at bound; omega⟩

end Coherent

theorem length_spell (alphabet : Alphabet) (word : List Symbol) :
    (alphabet.spell word).length = word.length := by simp [Alphabet.spell]

/-- An automaton is empty if and only if it accepts no input. One that is not accepts an input that
is shorter than it has live states. -/
theorem isEmpty_iff_none_accepted (arises : d.Arises) :
    (d.isEmpty = true ↔ ¬ ∃ input, (d.accepts input).result = .ok true) ∧
    (d.isEmpty = false → ∃ input, (d.accepts input).result = .ok true ∧ input.length < d.size) := by
  have coherent := arises.coherent
  have short : d.isEmpty = false →
      ∃ input, (d.accepts input).result = .ok true ∧ input.length < d.size := by
    intro inhabited
    have found : ¬ ∀ h ∈ d.finals, ¬ d.reachable.contains h = true := by
      rw [← isEmpty_eq_true_iff, inhabited]
      exact Bool.false_ne_true
    simp only [not_forall, not_not] at found
    obtain ⟨h, final, marked⟩ := found
    obtain ⟨word, visited, walks, bound⟩ :=
      coherent.exists_short_walk (coherent.mem_reachable_iff.mp marked)
    exact ⟨d.alphabet.spell word,
      coherent.accepts_iff_walks.mpr ⟨word, visited, h, d.alphabet.parse_spell word, walks, final⟩,
      (length_spell _ _).symm ▸ bound⟩
  refine ⟨⟨?_, ?_⟩, short⟩
  · rintro empty ⟨input, accepted⟩
    obtain ⟨word, visited, last, _, walks, final⟩ := coherent.accepts_iff_walks.mp accepted
    exact isEmpty_eq_true_iff.mp empty last final
      (coherent.mem_reachable_iff.mpr ⟨word, visited, walks⟩)
  · intro none
    by_contra inhabited
    obtain ⟨input, accepted, _⟩ := short (Bool.eq_false_iff.mpr inhabited)
    exact none ⟨input, accepted⟩

/-- The sample is not empty, and what it accepts can be had within two states. -/
theorem isEmpty_sample : sample.Arises ∧ sample.isEmpty = false ∧
    ∃ input, (sample.accepts input).result = .ok true ∧ input.length < sample.size :=
  ⟨sample_arises, by decide +kernel,
    (isEmpty_iff_none_accepted sample_arises).2 (by decide +kernel)⟩

end BinaryAutomata.Automaton
