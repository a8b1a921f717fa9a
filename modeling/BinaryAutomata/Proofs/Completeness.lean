import BinaryAutomata.Proofs.Abstraction

/-! Holes and the words that fail at them. A word fails at a hole exactly if a walk leads there, so the
holes of the states within reach tell all errors for missing edges, and an automaton with an initial
state and no such hole has an answer to every word. -/
namespace BinaryAutomata.Automaton

variable {d : Automaton}

namespace Coherent

theorem fails_iff (coherent : d.Coherent) :
    (∃ word, (d.evaluateSymbols word).result = .error (.missingTransition name c)) ↔
      ∃ h s, d.Reached h ∧ d.Hole h s ∧ d.nameOf h = name ∧ d.alphabet.charOf s = c := by
  simp only [coherent.evaluateSymbols_eq_error_iff]
  constructor
  · rintro ⟨word, ⟨⟨⟩, _⟩ | ⟨before, s, after, visited, h, q, rfl, walks, live, hole, same⟩⟩
    obtain ⟨rfl, rfl⟩ := Error.missingTransition.inj same
    exact ⟨h, s, ⟨before, visited, walks⟩, hole, nameOf_eq live, rfl⟩
  · rintro ⟨h, s, ⟨before, visited, walks⟩, hole, rfl, rfl⟩
    obtain ⟨q, live⟩ := contains_iff.mp walks.end_live
    -- The shortest word that fails there is the one that stops at the hole.
    exact ⟨before ++ [s], .inr ⟨before, s, [], visited, h, q, rfl, walks, live, hole,
      by rw [nameOf_eq live]⟩⟩

/-- With an initial state, every word that is refused is refused at a hole within reach. -/
theorem answers_all_iff (coherent : d.Coherent) :
    (∀ word, ∃ e, (d.evaluateSymbols word).result = .ok e) ↔
      d.initial ≠ none ∧ ∀ h s, d.Reached h → ¬ d.Hole h s := by
  constructor
  · intro answers
    refine ⟨?_, ?_⟩
    · intro unset
      obtain ⟨e, ok⟩ := answers []
      simp [evaluateSymbols, unset, Report.fail] at ok
    · intro h s reached hole
      obtain ⟨word, refused⟩ := coherent.fails_iff.mpr ⟨h, s, reached, hole, rfl, rfl⟩
      obtain ⟨e, ok⟩ := answers word
      simp [refused] at ok
  · rintro ⟨set, whole⟩ word
    obtain unset | ⟨visited, last, walks⟩ | ⟨before, s, _, visited, h, _, _, walks, _, hole⟩ :=
      coherent.walks_or_fails word
    · exact absurd unset set
    · exact ⟨_, evaluateSymbols_of_walks walks⟩
    · exact absurd hole (whole h s ⟨before, visited, walks⟩)

theorem initialState?_isSome_iff (coherent : d.Coherent) :
    d.initialState?.isSome = true ↔ d.initial ≠ none := by
  rw [← coherent.initialState?_id, Option.isSome_iff_ne_none, ne_eq, ne_eq, Option.map_eq_none_iff]

end Coherent

theorem isComplete_iff : d.isComplete = true ↔ ∀ h s, (h, s) ∉ d.holes := by
  rw [isComplete, List.isEmpty_iff, List.eq_nil_iff_forall_not_mem]
  exact Prod.forall

/-- The errors for missing edges are those of the holes within reach, and each tells which hole it
is. So evaluation succeeds on all words exactly if there is an initial state and no hole within reach,
and in particular if no state has a hole at all. -/
theorem holes_predict_failures (arises : d.Arises) :
    (∀ name c, (∃ word, (d.evaluateSymbols word).result = .error (.missingTransition name c)) ↔
      ∃ h s v, (h, s) ∈ d.holes ∧ d.reachable.contains h = true ∧ d.state? h = some v ∧
        v.state.name = name ∧ d.alphabet.charOf s = c) ∧
    (∀ h s g t v w, (h, s) ∈ d.holes → (g, t) ∈ d.holes → d.state? h = some v → d.state? g = some w →
      v.state.name = w.state.name → d.alphabet.charOf s = d.alphabet.charOf t → h = g ∧ s = t) ∧
    ((∀ word, ∃ e, (d.evaluateSymbols word).result = .ok e) ↔
      d.initialState?.isSome = true ∧ ∀ h s, (h, s) ∈ d.holes → d.reachable.contains h = false) ∧
    (d.initialState?.isSome = true → d.isComplete = true →
      ∀ word, ∃ e, (d.evaluateSymbols word).result = .ok e) := by
  have coherent := arises.coherent
  have whole_iff : (∀ h s, d.Reached h → ¬ d.Hole h s) ↔
      ∀ h s, (h, s) ∈ d.holes → d.reachable.contains h = false := by
    simp only [mem_holes, Bool.eq_false_iff, ne_eq, coherent.mem_reachable_iff]
    constructor
    · rintro whole h s ⟨_, hole⟩ reached
      exact whole h s reached hole
    · intro apart h s reached hole
      exact apart h s ⟨reached.live, hole⟩ reached
  have answers := coherent.answers_all_iff
  rw [whole_iff, ← coherent.initialState?_isSome_iff] at answers
  refine ⟨?_, ?_, answers, ?_⟩
  · intro name c
    rw [coherent.fails_iff]
    constructor
    · rintro ⟨h, s, reached, hole, rfl, rfl⟩
      obtain ⟨q, live⟩ := contains_iff.mp reached.live
      exact ⟨h, s, d.view h q, mem_holes.mpr ⟨reached.live, hole⟩,
        coherent.mem_reachable_iff.mpr reached, state?_of_live live, (nameOf_eq live).symm, rfl⟩
    · rintro ⟨h, s, v, listed, marked, seen, rfl, rfl⟩
      obtain ⟨q, live, rfl⟩ := state?_eq_some_iff.mp seen
      exact ⟨h, s, coherent.mem_reachable_iff.mp marked, (mem_holes.mp listed).2, nameOf_eq live, rfl⟩
  · intro h s g t v w listed listedToo seen seenToo named spelled
    obtain ⟨p, live, rfl⟩ := state?_eq_some_iff.mp seen
    obtain ⟨q, liveToo, rfl⟩ := state?_eq_some_iff.mp seenToo
    refine ⟨coherent.nameOf_inj (mem_holes.mp listed).1 (mem_holes.mp listedToo).1 ?_,
      Alphabet.charOf_injective spelled⟩
    rw [nameOf_eq live, nameOf_eq liveToo]
    exact named
  · intro set complete
    refine answers.mpr ⟨set, ?_⟩
    intro h s listed
    exact absurd listed (isComplete_iff.mp complete h s)

/-- The edge left behind in the sample is a hole within reach, so words fail on it. -/
theorem sample_fails : sample.Arises ∧ (⟨0, 0⟩, .b) ∈ sample.holes ∧
    (∃ word, (sample.evaluateSymbols word).result = .error (.missingTransition "p" 'b')) ∧
    ¬ ∀ word, ∃ e, (sample.evaluateSymbols word).result = .ok e := by
  obtain ⟨failures, _, answers, _⟩ := holes_predict_failures sample_arises
  have listed : (⟨0, 0⟩, .b) ∈ sample.holes := by decide +kernel
  have marked : sample.reachable.contains ⟨0, 0⟩ = true := by decide +kernel
  refine ⟨sample_arises, listed, (failures _ _).mpr ⟨_, _, _, listed, marked, rfl, rfl, rfl⟩, ?_⟩
  rw [answers]
  rintro ⟨_, apart⟩
  exact absurd (apart _ _ listed) (by simp [marked])

end BinaryAutomata.Automaton
