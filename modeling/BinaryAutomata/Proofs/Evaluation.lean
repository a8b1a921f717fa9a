import BinaryAutomata.Proofs.Path
import BinaryAutomata.Proofs.Run

/-! Evaluation is the walk of the partial transition function, and of nothing else. A word that has
a path from the initial state yields it with the verdict of its end; any other word is refused at
the end of its longest prefix that has one. -/
namespace BinaryAutomata.Automaton

/-- The word leads from the initial state through the states visited to `last`. -/
def Walks (d : Automaton) (word : List Symbol) (visited : List StateId) (last : StateId) : Prop :=
  ∃ start, d.initial = some start ∧ d.Path start word visited last

variable {d : Automaton} {word : List Symbol}

namespace Walks

theorem of_initial (initial : d.initial = some h) (live : d.contains h = true) :
    d.Walks [] [h] h := ⟨h, initial, .nil live⟩

theorem end_live (walks : d.Walks word visited last) : d.contains last = true := by
  obtain ⟨_, _, path⟩ := walks
  exact path.end_live

theorem step (walks : d.Walks word visited h) (edge : d.transition? h s = some target)
    (ends : d.contains target = true) : d.Walks (word ++ [s]) (visited ++ [target]) target := by
  obtain ⟨start, initial, path⟩ := walks
  exact ⟨start, initial, path.append edge (.nil ends)⟩

/-- The last step of a walk goes from where the walk is without it. -/
theorem edge_of_step (walks : d.Walks word visited h)
    (further : d.Walks (word ++ [s]) visited' target) :
    d.transition? h s = some target ∧ d.contains target = true := by
  obtain ⟨start, initial, path⟩ := walks
  obtain ⟨start', initial', path'⟩ := further
  cases Option.some.inj (initial.symm.trans initial')
  by_cases hole : d.Hole h s
  · exact absurd path' (path.none_through_hole hole)
  · obtain ⟨next, edge, ends⟩ := not_hole_iff.mp hole
    obtain ⟨_, rfl⟩ := (path.append edge (.nil ends)).unique path'
    exact ⟨edge, ends⟩

end Walks

theorem evaluateSymbols_of_initial (initial : d.initial = some h) (live : d.find? h = some q)
    (word : List Symbol) : d.evaluateSymbols word = d.walk 0 h q word := by
  simp [evaluateSymbols, initial, live]

theorem evaluateSymbols_of_walks (walks : d.Walks word visited last) :
    (d.evaluateSymbols word).result = .ok (d.evaluation visited last) := by
  obtain ⟨start, initial, path⟩ := walks
  obtain ⟨q, live⟩ := contains_iff.mp path.start_live
  rw [evaluateSymbols_of_initial initial live]
  exact walk_of_path path live 0

theorem evaluateSymbols_of_hole (walks : d.Walks before visited h) (live : d.find? h = some q)
    (hole : d.Hole h s) (after : List Symbol) : (d.evaluateSymbols (before ++ s :: after)).result =
      .error (.missingTransition q.name (d.alphabet.charOf s)) := by
  obtain ⟨start, initial, path⟩ := walks
  obtain ⟨p, begins⟩ := contains_iff.mp path.start_live
  rw [evaluateSymbols_of_initial initial begins]
  exact walk_of_hole path begins live hole after 0

theorem Coherent.walks_or_fails (coherent : d.Coherent) (word : List Symbol) :
    d.initial = none ∨ (∃ visited last, d.Walks word visited last) ∨
      ∃ before s after visited h q, word = before ++ s :: after ∧ d.Walks before visited h ∧
        d.find? h = some q ∧ d.Hole h s := by
  cases initial : d.initial with
  | none => exact .inl rfl
  | some start =>
    obtain ⟨visited, last, path⟩ | ⟨before, s, after, visited, h, split, path, hole⟩ :=
      path_or_hole (coherent.initial_live initial) word
    · exact .inr (.inl ⟨visited, last, start, initial, path⟩)
    · obtain ⟨q, live⟩ := contains_iff.mp path.end_live
      exact .inr (.inr ⟨before, s, after, visited, h, q, split, ⟨start, initial, path⟩, live, hole⟩)

theorem Coherent.evaluateSymbols_eq_ok_iff (coherent : d.Coherent) :
    (d.evaluateSymbols word).result = .ok e ↔
      ∃ visited last, d.Walks word visited last ∧ e = d.evaluation visited last := by
  constructor
  · intro ok
    obtain none | ⟨visited, last, walks⟩ | ⟨before, s, after, visited, h, q, rfl, walks, live, hole⟩ :=
      coherent.walks_or_fails word
    · simp [evaluateSymbols, none, Report.fail] at ok
    · exact ⟨visited, last, walks, by simpa [evaluateSymbols_of_walks walks, eq_comm] using ok⟩
    · rw [evaluateSymbols_of_hole walks live hole after] at ok
      contradiction
  · rintro ⟨visited, last, walks, rfl⟩
    exact evaluateSymbols_of_walks walks

theorem Coherent.evaluateSymbols_eq_error_iff (coherent : d.Coherent) :
    (d.evaluateSymbols word).result = .error cause ↔
      (cause = .noInitialState ∧ d.initial = none) ∨
      ∃ before s after visited h q, word = before ++ s :: after ∧ d.Walks before visited h ∧
        d.find? h = some q ∧ d.Hole h s ∧
        cause = .missingTransition q.name (d.alphabet.charOf s) := by
  constructor
  · intro refused
    obtain none | ⟨visited, last, walks⟩ | ⟨before, s, after, visited, h, q, rfl, walks, live, hole⟩ :=
      coherent.walks_or_fails word
    · exact .inl ⟨by simpa [evaluateSymbols, none, Report.fail, eq_comm] using refused, none⟩
    · rw [evaluateSymbols_of_walks walks] at refused
      contradiction
    · rw [evaluateSymbols_of_hole walks live hole after] at refused
      cases refused
      exact .inr ⟨before, s, after, visited, h, q, rfl, walks, live, hole, rfl⟩
  · rintro (⟨rfl, none⟩ | ⟨before, s, after, visited, h, q, rfl, walks, live, hole, rfl⟩)
    · simp [evaluateSymbols, none, Report.fail]
    · exact evaluateSymbols_of_hole walks live hole after

/-- A path ends at a hole of the word if and only if no longer prefix of the word has a path. -/
theorem Walks.hole_iff_longest (walks : d.Walks before visited h) (s : Symbol) (after : List Symbol) :
    d.Hole h s ↔ ∀ longer, longer <+: before ++ s :: after → before.length < longer.length →
      ¬ ∃ visited' last, d.Walks longer visited' last := by
  obtain ⟨start, initial, path⟩ := walks
  constructor
  · rintro hole longer part more ⟨visited', last, start', initial', path'⟩
    cases Option.some.inj (initial.symm.trans initial')
    obtain ⟨rest, rfl⟩ :=
      List.prefix_of_prefix_length_le (List.prefix_append _ _) part (Nat.le_of_lt more)
    cases rest with
    | nil => simp at more
    | cons t rest =>
      obtain ⟨rfl, _⟩ := List.cons_prefix_cons.mp ((List.prefix_append_right_inj before).mp part)
      exact path.none_through_hole hole path'
  · intro longest next edge
    rw [Bool.eq_false_iff]
    intro ends
    have longer : before ++ [s] <+: before ++ s :: after := by simp
    exact longest _ longer (by simp) ⟨_, next, start, initial, path.append edge (.nil ends)⟩

@[simp] theorem states_evaluation (d : Automaton) (visited : List StateId) (last : StateId) :
    (d.evaluation visited last).trace.states = visited := by
  simp [evaluation, Trace.states, Function.comp_def]

theorem Walks.last?_evaluation (walks : d.Walks word visited last) :
    (d.evaluation visited last).trace.last? = some last := by
  obtain ⟨_, _, path⟩ := walks
  rw [Trace.last?, states_evaluation, path.getLast?_visited]

/-- The names of a trace are those that its states have, place by place. -/
theorem Walks.names_evaluation (walks : d.Walks word visited last) :
    (d.evaluation visited last).trace.names.map some =
      visited.map fun h => (d.state? h).map (·.state.name) := by
  obtain ⟨_, _, path⟩ := walks
  simp only [evaluation, Trace.names, List.map_map, List.map_inj_left, Function.comp_apply]
  intro h member
  obtain ⟨q, live⟩ := contains_iff.mp (path.visited_live h member)
  simp [nameOf_eq live, state?, live, view]

theorem accepted_evaluation_iff (d : Automaton) (visited : List StateId) (last : StateId) :
    (d.evaluation visited last).verdict = .accepted ↔ d.isFinal last = true := by
  by_cases final : d.isFinal last = true <;> simp [evaluation, Verdict.ofBool, final]

/-- Evaluation succeeds exactly on the words that walk from the initial state through live states,
and tells that walk, its names and the role of its end. All it reports otherwise is that there is no
initial state, or the state and the symbol at which the longest walkable prefix ends. -/
theorem evaluateSymbols_is_walk (arises : d.Arises) (word : List Symbol) :
    ((d.evaluateSymbols word).result = .error .noInitialState ↔ d.initial = none) ∧
    (∀ visited, (∃ last, d.Walks word visited last) ↔
      ∃ e, (d.evaluateSymbols word).result = .ok e ∧ e.trace.states = visited) ∧
    (∀ e, (d.evaluateSymbols word).result = .ok e →
      e.trace.names.map some = e.trace.states.map (fun h => (d.state? h).map (·.state.name)) ∧
      e.trace.length = word.length + 1 ∧
      (e.verdict = .accepted ↔ ∃ last, e.trace.last? = some last ∧ d.isFinal last = true)) ∧
    (∀ cause, (d.evaluateSymbols word).result = .error cause ↔
      (cause = .noInitialState ∧ d.initial = none) ∨
      ∃ before s after visited h v, word = before ++ s :: after ∧ d.Walks before visited h ∧
        (∀ longer, longer <+: word → before.length < longer.length →
          ¬ ∃ visited' last, d.Walks longer visited' last) ∧
        d.state? h = some v ∧
        cause = .missingTransition v.state.name (d.alphabet.charOf s)) ∧
    (∀ h, d.initial = some h → d.contains h = true) := by
  have coherent := arises.coherent
  refine ⟨?_, ?_, ?_, ?_, ?_⟩
  · rw [coherent.evaluateSymbols_eq_error_iff]
    simp
  · intro visited
    simp only [coherent.evaluateSymbols_eq_ok_iff]
    constructor
    · rintro ⟨last, walks⟩
      exact ⟨_, ⟨visited, last, walks, rfl⟩, states_evaluation d visited last⟩
    · rintro ⟨_, ⟨visited', last, walks, rfl⟩, same⟩
      rw [states_evaluation] at same
      exact ⟨last, same ▸ walks⟩
  · intro e ok
    obtain ⟨visited, last, walks, rfl⟩ := coherent.evaluateSymbols_eq_ok_iff.mp ok
    refine ⟨?_, ?_, ?_⟩
    · rw [states_evaluation]
      exact walks.names_evaluation
    · obtain ⟨_, _, path⟩ := walks
      simpa [evaluation, Trace.length] using path.length_visited
    · simp [walks.last?_evaluation, accepted_evaluation_iff]
  · intro cause
    rw [coherent.evaluateSymbols_eq_error_iff]
    apply or_congr Iff.rfl
    constructor
    · rintro ⟨before, s, after, visited, h, q, rfl, walks, live, hole, rfl⟩
      exact ⟨before, s, after, visited, h, d.view h q, rfl, walks,
        (walks.hole_iff_longest s after).mp hole, by simp [state?, live], rfl⟩
    · rintro ⟨before, s, after, visited, h, v, rfl, walks, longest, seen, rfl⟩
      obtain ⟨q, live, rfl⟩ := Option.map_eq_some_iff.mp seen
      exact ⟨before, s, after, visited, h, q, rfl, walks, live,
        (walks.hole_iff_longest s after).mpr longest, rfl⟩
  · intro h initial
    exact coherent.initial_live initial

/-- A word that goes round a cycle, and one that stops at the edge left behind. -/
theorem evaluateSymbols_sample : sample.Arises ∧
    (∃ e, (sample.evaluateSymbols [.a, .b, .a]).result = .ok e ∧
      e.trace.states = [⟨0, 0⟩, ⟨0, 3⟩, ⟨0, 0⟩, ⟨0, 3⟩]) ∧
    (sample.evaluateSymbols [.b, .a]).result = .error (.missingTransition "p" 'b') := by
  have cycle : sample.Walks [.a, .b, .a] [⟨0, 0⟩, ⟨0, 3⟩, ⟨0, 0⟩, ⟨0, 3⟩] ⟨0, 3⟩ :=
    ⟨_, rfl, .cons rfl rfl (.cons rfl rfl (.cons rfl rfl (.nil rfl)))⟩
  have start : sample.Walks [] [⟨0, 0⟩] ⟨0, 0⟩ := ⟨_, rfl, .nil rfl⟩
  have hole : sample.Hole ⟨0, 0⟩ .b := by
    rintro target ⟨⟩
    rfl
  refine ⟨sample_arises, ((evaluateSymbols_is_walk sample_arises _).2.1 _).mp ⟨_, cycle⟩, ?_⟩
  exact ((evaluateSymbols_is_walk sample_arises _).2.2.2.1 _).mpr (.inr ⟨[], .b, [.a], _, _,
    sample.view ⟨0, 0⟩ ⟨"p", some ⟨0, 3⟩, some ⟨0, 1⟩⟩, rfl, start,
    (start.hole_iff_longest .b [.a]).mp hole, rfl, rfl⟩)

end BinaryAutomata.Automaton
