import BinaryAutomata.Proofs.Visits

/-! Running one word after another. A word that fails makes every longer word fail in the same way; one
that succeeds leaves the rest to be run from its end, as by an automaton that begins there. -/
namespace BinaryAutomata

namespace Trace

/-- A trace and then one that begins where it ends, so that the state at which they meet counts once. -/
def join (trace rest : Trace) : Trace := ⟨trace.visits ++ rest.visits.tail⟩

@[simp] theorem states_join (trace rest : Trace) :
    (trace.join rest).states = trace.states ++ rest.states.tail := by simp [join, states]

@[simp] theorem names_join (trace rest : Trace) :
    (trace.join rest).names = trace.names ++ rest.names.tail := by simp [join, names]

end Trace

namespace Automaton

variable {d : Automaton} {u v : List Symbol} {visited visited' : List StateId}

theorem Walks.concat (walks : d.Walks u visited h) (rest : d.Path h v visited' last) :
    d.Walks (u ++ v) (visited ++ visited'.tail) last := by
  obtain ⟨start, initial, path⟩ := walks
  exact ⟨start, initial, path.concat rest⟩

theorem evaluation_concat (d : Automaton) (visited visited' : List StateId) (h last : StateId) :
    d.evaluation (visited ++ visited'.tail) last =
      ⟨(d.evaluation visited' last).verdict,
        (d.evaluation visited h).trace.join (d.evaluation visited' last).trace⟩ := by
  simp [evaluation, Trace.join]

/-- The initial role decides where walks begin, and nothing else about them. -/
theorem walks_withInitial_iff (d : Automaton) (q : StateId) :
    (d.withRoles q true false).Walks v visited h ↔ d.Path q v visited h := by
  constructor
  · rintro ⟨_, ⟨⟩, path⟩
    exact path.transfer path.visited_live fun _ _ => rfl
  · intro path
    exact ⟨q, rfl, path.transfer path.visited_live fun _ _ => rfl⟩

namespace Coherent

theorem error_append (coherent : d.Coherent) (refused : (d.evaluateSymbols u).result = .error cause)
    (v : List Symbol) : (d.evaluateSymbols (u ++ v)).result = .error cause := by
  obtain ⟨rfl, unset⟩ | ⟨before, s, after, visited, h, q, rfl, walks, live, hole, rfl⟩ :=
    coherent.evaluateSymbols_eq_error_iff.mp refused
  · exact coherent.evaluateSymbols_eq_error_iff.mpr (.inl ⟨rfl, unset⟩)
  · rw [List.append_assoc, List.cons_append]
    exact evaluateSymbols_of_hole walks live hole (after ++ v)

/-- After a walk, the rest of the word ends as it does in the automaton that begins where the walk
has ended. -/
theorem result_append (coherent : d.Coherent) (walks : d.Walks u visited q) (v : List Symbol) :
    (d.evaluateSymbols (u ++ v)).result =
      ((d.withRoles q true false).evaluateSymbols v).result.map fun rest =>
        ⟨rest.verdict, (d.evaluation visited q).trace.join rest.trace⟩ := by
  have moved := coherent.withRoles walks.end_live true false
  obtain unset | ⟨visited', last, rest⟩ | ⟨before, s, after, visited', h, p, rfl, rest, _, hole⟩ :=
    moved.walks_or_fails v
  · contradiction
  · have whole := walks.concat ((d.walks_withInitial_iff q).mp rest)
    rw [evaluateSymbols_of_walks rest, evaluateSymbols_of_walks whole, d.evaluation_concat _ _ q]
    rfl
  · have whole := walks.concat ((d.walks_withInitial_iff q).mp rest)
    rw [rest.stops hole, ← List.append_assoc, whole.stops hole]
    rfl

end Coherent

/-- A word that is refused makes every word that begins with it be refused for the same cause. One that
is not ends in a state. What follows it is then refused, or has the verdict, as in a copy of the
automaton whose initial state this is, and the whole trace is that of the word and then that of the
copy, without its first state. -/
theorem evaluateSymbols_append (arises : d.Arises) (u v : List Symbol) :
    (∀ cause, (d.evaluateSymbols u).result = .error cause →
      (d.evaluateSymbols (u ++ v)).result = .error cause) ∧
    ∀ e, (d.evaluateSymbols u).result = .ok e → ∃ q copy outcome, e.trace.last? = some q ∧
      (d.setInitial q).result = .ok (copy, outcome) ∧
      (∀ cause, (copy.evaluateSymbols v).result = .error cause →
        (d.evaluateSymbols (u ++ v)).result = .error cause) ∧
      ∀ rest, (copy.evaluateSymbols v).result = .ok rest →
        ∃ whole, (d.evaluateSymbols (u ++ v)).result = .ok whole ∧ whole.verdict = rest.verdict ∧
          whole.trace.states = e.trace.states ++ rest.trace.states.tail ∧
          whole.trace.names = e.trace.names ++ rest.trace.names.tail := by
  have coherent := arises.coherent
  refine ⟨fun cause refused => coherent.error_append refused v, ?_⟩
  intro e ok
  obtain ⟨visited, q, walks, rfl⟩ := coherent.evaluateSymbols_eq_ok_iff.mp ok
  have joined := coherent.result_append walks v
  refine ⟨q, _, _, walks.last?_evaluation, setInitial_eq_ok_iff.mpr ⟨walks.end_live, rfl, rfl⟩, ?_, ?_⟩
  · intro cause refused
    rw [joined, refused]
    rfl
  · intro rest evaluated
    rw [evaluated] at joined
    exact ⟨_, joined, rfl, Trace.states_join _ _, Trace.names_join _ _⟩

/-- A word that is run in two parts, and one whose first part fails already. -/
theorem sample_runs_on : sample.Arises ∧
    (∃ copy e whole, (sample.setInitial ⟨0, 3⟩).result = .ok (copy, .applied) ∧
      (sample.evaluateSymbols [.a]).result = .ok e ∧ e.trace.names = ["p", "s"] ∧
      (sample.evaluateSymbols ([.a] ++ [.b, .a])).result = .ok whole ∧ whole.verdict = .accepted ∧
      whole.trace.names = e.trace.names ++ ["p", "s"]) ∧
    (sample.evaluateSymbols ([.b] ++ [.a])).result = .error (.missingTransition "p" 'b') := by
  refine ⟨sample_arises, ?_, (evaluateSymbols_append sample_arises [.b] [.a]).1 _ rfl⟩
  obtain ⟨q, copy, outcome, ends, moved, _, joined⟩ :=
    (evaluateSymbols_append sample_arises [.a] [.b, .a]).2 _ rfl
  cases ends
  cases moved
  obtain ⟨whole, evaluated, verdict, _, names⟩ := joined _ rfl
  exact ⟨_, _, whole, rfl, rfl, rfl, evaluated, verdict, names⟩

end Automaton
end BinaryAutomata
