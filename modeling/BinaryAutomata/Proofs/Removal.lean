import BinaryAutomata.Proofs.Emptiness
import BinaryAutomata.Proofs.Slots
import BinaryAutomata.Proofs.Visits

/-! What removing a state does to evaluation. Words that never come to the state are run as before; one
that does now stops where it would have entered the state for the first time. -/
namespace BinaryAutomata.Automaton

variable {d : Automaton} {q : StateId} {data : State} {word : List Symbol} {visited : List StateId}

namespace Visits

theorem live (visits : d.Visits word visited) : ∀ h ∈ visited, d.contains h = true := by
  cases visits with
  | unset => simp
  | walked walks | stopped walks _ =>
    obtain ⟨_, _, path⟩ := walks
    exact path.visited_live

theorem initial_of_first (visits : d.Visits word visited) (first : visited[0]? = some h) :
    d.initial = some h := by
  cases visits with
  | unset => contradiction
  | walked walks | stopped walks _ =>
    obtain ⟨start, initial, path⟩ := walks
    cases path <;> cases first <;> exact initial

theorem reached (visits : d.Visits word visited) (member : h ∈ visited) : d.Reached h := by
  have live := visits.live h member
  obtain ⟨k, place⟩ := List.mem_iff_getElem?.mp member
  cases k with
  | zero => exact ⟨[], [h], .of_initial (visits.initial_of_first place) live⟩
  | succ k =>
    obtain ⟨before, s, _, p, _, _, walks, edge⟩ := visits.arrives place
    exact ⟨before ++ [s], _, walks.step edge live⟩

theorem trace_states (visits : d.Visits word visited)
    (evaluated : (d.evaluateSymbols word).result = .ok e) : e.trace.states = visited := by
  cases visits with
  | unset unset => simp [evaluateSymbols, unset, Report.fail] at evaluated
  | walked walks =>
    rw [evaluateSymbols_of_walks walks] at evaluated
    cases evaluated
    exact states_evaluation d _ _
  | stopped walks hole => simp [walks.stops hole] at evaluated

end Visits

theorem contains_eraseState (live : d.find? q = some data) (h : StateId) :
    (d.eraseState q data).contains h = true ↔ h ≠ q ∧ d.contains h = true :=
  (rewritten_eraseState live).contains_of_none h

theorem hole_eraseState (live : d.find? q = some data) (other : h ≠ q) (hole : d.Hole h s) :
    (d.eraseState q data).Hole h s := by
  intro target edge
  rw [transition?_eraseState live other] at edge
  simp [Bool.eq_false_iff, contains_eraseState live, hole target edge]

/-- An edge into the state stays where it is, so that it is a hole from now on. -/
theorem hole_into_eraseState (live : d.find? q = some data) (other : h ≠ q)
    (edge : d.transition? h s = some q) : (d.eraseState q data).Hole h s := by
  intro target same
  rw [transition?_eraseState live other, edge] at same
  cases same
  simp [Bool.eq_false_iff, contains_eraseState live]

theorem nameOf_eraseState (live : d.find? q = some data) (other : h ≠ q) :
    (d.eraseState q data).nameOf h = d.nameOf h := (rewritten_eraseState live).nameOf_of_ne other

theorem isFinal_eraseState (other : h ≠ q) : (d.eraseState q data).isFinal h = d.isFinal h := by
  rw [Bool.eq_iff_iff, isFinal_iff, isFinal_iff]
  exact List.mem_erase_of_ne other

theorem initial_eraseState (lacks : d.isInitial q = false) :
    (d.eraseState q data).initial = d.initial := by
  simp only [isInitial, decide_eq_false_iff_not] at lacks
  simp [eraseState, lacks]

theorem Path.eraseState (path : Path d g word visited h) (live : d.find? q = some data)
    (absent : q ∉ visited) : Path (d.eraseState q data) g word visited h := by
  have other : ∀ h ∈ visited, h ≠ q := fun h member same => absent (same ▸ member)
  apply path.transfer
  · intro h member
    exact (contains_eraseState live h).mpr ⟨other h member, path.visited_live h member⟩
  · intro slot tried
    exact transition?_eraseState live (other _ (List.of_mem_zip tried).1) _

/-- What a word that never comes to the state needs of the automaton, it still has. -/
theorem Visits.keeps_eraseState (visits : d.Visits word visited) (live : d.find? q = some data)
    (lacks : d.isInitial q = false) (absent : q ∉ visited) :
    d.Keeps (d.eraseState q data) word visited := by
  have other : ∀ h ∈ visited, h ≠ q := fun h member same => absent (same ▸ member)
  exact {
    initial := initial_eraseState lacks
    alphabet := rfl
    live := fun h member => (contains_eraseState live h).mpr ⟨other h member, visits.live h member⟩
    names := fun h member => nameOf_eraseState live (other h member)
    roles := fun h member => isFinal_eraseState (other h member)
    edges := fun _ tried => transition?_eraseState live (other _ (List.of_mem_zip tried).1) _
    holes := fun _ tried => hole_eraseState live (other _ (List.of_mem_zip tried).1) }

theorem Visits.stops_before (visits : d.Visits word visited) (live : d.find? q = some data)
    (lacks : d.isInitial q = false) (place : visited[k]? = some q) (first : q ∉ visited.take k) :
    ∃ i p v s, k = i + 1 ∧ visited[i]? = some p ∧ d.state? p = some v ∧ word[i]? = some s ∧
      ((d.eraseState q data).evaluateSymbols word).result =
        .error (.missingTransition v.state.name (d.alphabet.charOf s)) := by
  cases k with
  | zero => simp [isInitial, visits.initial_of_first place] at lacks
  | succ i =>
    obtain ⟨before, s, after, p, rfl, rfl, ⟨start, initial, path⟩, edge⟩ := visits.arrives place
    have last := path.last_visited
    have other : p ≠ q := fun same => first (same ▸ List.mem_of_getElem? last)
    have walks : (d.eraseState q data).Walks before (visited.take (before.length + 1)) p :=
      ⟨start, (initial_eraseState lacks).trans initial, path.eraseState live first⟩
    obtain ⟨v, held⟩ := contains_iff.mp path.end_live
    rw [List.getElem?_take_of_lt (Nat.lt_succ_self _)] at last
    refine ⟨_, p, _, s, rfl, last, state?_of_live held, by simp, ?_⟩
    rw [walks.stops (hole_into_eraseState live other edge), nameOf_eraseState live other,
      nameOf_eq held]
    rfl

theorem evaluateSymbols_eraseState_of_unreachable (coherent : d.Coherent)
    (live : d.find? q = some data) (unreached : d.reachable.contains q = false)
    (word : List Symbol) :
    ((d.eraseState q data).evaluateSymbols word).result = (d.evaluateSymbols word).result := by
  have away : ¬ d.Reached q := by
    rw [← coherent.mem_reachable_iff, unreached]
    exact Bool.false_ne_true
  have lacks : d.isInitial q = false := by
    rw [Bool.eq_false_iff]
    intro holds
    exact away ⟨[], [q], .of_initial (isInitial_iff.mp holds) (contains_iff.mpr ⟨data, live⟩)⟩
  obtain ⟨visited, visits⟩ := coherent.exists_visits word
  exact visits.result_eq (visits.keeps_eraseState live lacks fun member => away (visits.reached member))

/-- Without its initial state an automaton runs no word. If the state removed is another one, a word that
does not visit it is run as before, and one that does fails instead of entering it for the first time:
the error names the state visited before, and the symbol that would have led on. So a state out of reach
can be removed without changing any evaluation, or whether the automaton is empty. -/
theorem evaluation_after_removal (arises : d.Arises) (live : d.contains q = true) :
    ∃ d', (d.remove q).result = .ok (d', .applied) ∧
      (d.isInitial q = true → ∀ word, (d'.evaluateSymbols word).result = .error .noInitialState) ∧
      (d.isInitial q = false → ∀ word, (∃ visited, d.Visits word visited) ∧
        ∀ visited, d.Visits word visited →
          (∀ e, (d.evaluateSymbols word).result = .ok e → e.trace.states = visited) ∧
          (q ∉ visited → (d'.evaluateSymbols word).result = (d.evaluateSymbols word).result) ∧
          ∀ k, visited[k]? = some q → q ∉ visited.take k →
            ∃ i p v s, k = i + 1 ∧ visited[i]? = some p ∧ d.state? p = some v ∧
              word[i]? = some s ∧ (d'.evaluateSymbols word).result =
                .error (.missingTransition v.state.name (d.alphabet.charOf s))) ∧
      (d.reachable.contains q = false →
        (∀ word, (d'.evaluateSymbols word).result = (d.evaluateSymbols word).result) ∧
        d'.isEmpty = d.isEmpty) := by
  have coherent := arises.coherent
  obtain ⟨data, live⟩ := contains_iff.mp live
  refine ⟨_, remove_eq_ok_iff.mpr (.inr ⟨data, live, rfl, rfl⟩), ?_, ?_, ?_⟩
  · intro holds word
    have vacant : (d.eraseState q data).initial = none := if_pos (isInitial_iff.mp holds)
    simp [evaluateSymbols, vacant, Report.fail]
  · intro lacks word
    refine ⟨coherent.exists_visits word, ?_⟩
    intro visited visits
    refine ⟨fun e => visits.trace_states, ?_, fun k => visits.stops_before live lacks⟩
    intro absent
    exact visits.result_eq (visits.keeps_eraseState live lacks absent)
  · intro unreached
    have same := evaluateSymbols_eraseState_of_unreachable coherent live unreached
    refine ⟨same, ?_⟩
    rw [Bool.eq_iff_iff, (coherent.eraseState live).isEmpty_iff_rejects, coherent.isEmpty_iff_rejects]
    simp only [same]

/-- Once the final state of the sample is removed, the edge to it stops the word that took it. -/
theorem sample_stops_short : sample.Arises ∧ sample.contains ⟨0, 3⟩ = true ∧
    ∃ d', (sample.remove ⟨0, 3⟩).result = .ok (d', .applied) ∧
      (d'.evaluateSymbols [.a, .b]).result = .error (.missingTransition "p" 'a') ∧
      (d'.evaluateSymbols [.b]).result = (sample.evaluateSymbols [.b]).result := by
  have cycle : sample.Walks [.a, .b] [⟨0, 0⟩, ⟨0, 3⟩, ⟨0, 0⟩] ⟨0, 0⟩ :=
    ⟨_, rfl, .cons rfl rfl (.cons rfl rfl (.nil rfl))⟩
  have start : sample.Walks [] [⟨0, 0⟩] ⟨0, 0⟩ := ⟨_, rfl, .nil rfl⟩
  have hole : sample.Hole ⟨0, 0⟩ .b := by
    rintro target ⟨⟩
    rfl
  obtain ⟨d', removed, _, others, _⟩ := evaluation_after_removal sample_arises
    (show sample.contains ⟨0, 3⟩ = true from rfl)
  refine ⟨sample_arises, rfl, d', removed, ?_, ?_⟩
  · obtain ⟨_, p, v, s, ⟨⟩, before, seen, read, stops⟩ :=
      ((others rfl _).2 _ (.walked cycle)).2.2 1 rfl (by decide)
    cases before
    cases seen
    cases read
    exact stops
  · exact ((others rfl _).2 _ (.stopped start hole)).2.1 (by decide)

end BinaryAutomata.Automaton
