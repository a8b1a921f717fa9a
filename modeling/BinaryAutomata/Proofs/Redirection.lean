import BinaryAutomata.Proofs.Composition
import BinaryAutomata.Proofs.Removal

/-! What writing one slot does to evaluation. Words that never try the slot are run as before. One that
does is run as before up to its first try; there it stops if the slot was cleared, and if it was set goes
on from the new target, by the edges as they are now. -/
namespace BinaryAutomata

/-- The same evaluation, entered through the states of a trace. -/
def Evaluation.afterTrace (evaluation : Evaluation) (trace : Trace) : Evaluation :=
  { evaluation with trace := ⟨trace.visits ++ evaluation.trace.visits⟩ }

namespace Automaton

variable {d : Automaton} {p t : StateId} {q : State} {s : Symbol} {word : List Symbol}
  {visited : List StateId}

/-- How a path comes to try a slot, and what it has tried by then. -/
theorem Path.tries (path : Path d g word visited h) (tried : (visited.zip word)[i]? = some (p, s)) :
    ∃ before after visited', word = before ++ s :: after ∧ before.length = i ∧
      Path d g before visited' p ∧ visited'.zip before = (visited.zip word).take i := by
  induction path generalizing i with
  | nil => simp at tried
  | @cons g s' next word visited h live edge rest ih =>
    cases i with
    | zero =>
      cases tried
      exact ⟨[], word, [p], rfl, rfl, .nil live, rfl⟩
    | succ i =>
      obtain ⟨before, after, visited', rfl, rfl, path, slots⟩ := ih tried
      exact ⟨s' :: before, after, g :: visited', rfl, rfl, .cons live edge path,
        congrArg ((g, s') :: ·) slots⟩

/-- A slot that a path tries is no hole. -/
theorem Path.not_hole (path : Path d g word visited h) (tried : (p, s) ∈ visited.zip word) :
    ¬ d.Hole p s := by
  intro hole
  obtain ⟨i, place⟩ := List.mem_iff_getElem?.mp tried
  obtain ⟨before, after, visited', rfl, _, before, _⟩ := path.tries place
  exact before.none_through_hole hole path

theorem Visits.tries (visits : d.Visits word visited)
    (tried : (visited.zip word)[i]? = some (p, s)) :
    ∃ before after visited', word = before ++ s :: after ∧ before.length = i ∧
      d.Walks before visited' p ∧ visited'.zip before = (visited.zip word).take i := by
  cases visits with
  | unset => simp at tried
  | walked walks =>
    obtain ⟨start, initial, path⟩ := walks
    obtain ⟨before, after, visited', split, length, path, slots⟩ := path.tries tried
    exact ⟨before, after, visited', split, length, ⟨start, initial, path⟩, slots⟩
  | @stopped before _ h s' after walks _ =>
    have whole := walks
    obtain ⟨start, initial, path⟩ := walks
    rw [path.zip_append] at tried ⊢
    obtain inside | beyond := Nat.lt_or_ge i (visited.zip before).length
    · rw [List.getElem?_append_left inside] at tried
      obtain ⟨before, between, visited', rfl, length, path, slots⟩ := path.tries tried
      refine ⟨before, _, visited', List.append_assoc .., length, ⟨start, initial, path⟩, ?_⟩
      rw [List.take_append_of_le_length (Nat.le_of_lt inside), slots]
    · -- Beyond the slots of its path, a word that stops has tried only the hole.
      have length : (visited.zip before).length = before.length := by
        simp [path.length_visited]
      obtain ⟨same, last⟩ : i - (visited.zip before).length = 0 ∧ (h, s') = (p, s) := by
        rw [List.getElem?_append_right beyond, List.getElem?_singleton] at tried
        simpa using tried
      cases last
      have ends : i = (visited.zip before).length := by omega
      exact ⟨before, after, visited, rfl, by omega, whole, by rw [ends, List.take_left]⟩

theorem transition?_redirectState_of_ne (live : d.find? p = some q) (target : Option StateId)
    {slot : StateId × Symbol} (other : slot ≠ (p, s)) :
    (d.redirectState p q s target).transition? slot.1 slot.2 = d.transition? slot.1 slot.2 := by
  rw [transition?_redirectState live, if_neg]
  rintro ⟨rfl, rfl⟩
  exact other rfl

theorem Path.redirectState (path : Path d g word visited h) (coherent : d.Coherent)
    (live : d.find? p = some q) (target : Option StateId) (untried : (p, s) ∉ visited.zip word) :
    Path (d.redirectState p q s target) g word visited h := by
  apply path.transfer
  · intro h member
    rw [coherent.contains_redirectState live]
    exact path.visited_live h member
  · intro slot tried
    exact transition?_redirectState_of_ne live target (ne_of_mem_of_not_mem tried untried)

/-- What a word that never tries the slot needs of the automaton, it still has. -/
theorem Visits.keeps_redirectState (visits : d.Visits word visited) (coherent : d.Coherent)
    (live : d.find? p = some q) (target : Option StateId) (untried : (p, s) ∉ visited.zip word) :
    d.Keeps (d.redirectState p q s target) word visited where
  initial := rfl
  alphabet := rfl
  live h member := by
    rw [coherent.contains_redirectState live]
    exact visits.live h member
  names h _ := by rw [coherent.nameOf_redirectState live]
  roles _ _ := rfl
  edges slot tried :=
    transition?_redirectState_of_ne live target (ne_of_mem_of_not_mem tried untried)
  holes slot tried hole := by
    intro next edge
    rw [transition?_redirectState_of_ne live target (ne_of_mem_of_not_mem tried untried)] at edge
    rw [coherent.contains_redirectState live]
    exact hole next edge

theorem evaluation_append (d : Automaton) (visited visited' : List StateId) (h last : StateId) :
    d.evaluation (visited ++ visited') last =
      (d.evaluation visited' last).afterTrace (d.evaluation visited h).trace := by
  simp [evaluation, Evaluation.afterTrace]

/-- After a walk and a step, the rest of the word ends as it does in the automaton that begins at the
target. -/
theorem Coherent.result_step (coherent : d.Coherent) (walks : d.Walks before visited p)
    (edge : d.transition? p s = some t) (ends : d.contains t = true) (after : List Symbol) :
    (d.evaluateSymbols (before ++ s :: after)).result =
      ((d.withRoles t true false).evaluateSymbols after).result.map
        (·.afterTrace (d.evaluation visited p).trace) := by
  have moved := coherent.withRoles ends true false
  obtain ⟨start, initial, path⟩ := walks
  obtain unset | ⟨visited', last, rest⟩ | ⟨word, s', others, visited', h, _, rfl, rest, _, hole⟩ :=
    moved.walks_or_fails after
  · contradiction
  · have whole : d.Walks (before ++ s :: after) (visited ++ visited') last :=
      ⟨start, initial, path.append edge ((d.walks_withInitial_iff t).mp rest)⟩
    rw [evaluateSymbols_of_walks rest, evaluateSymbols_of_walks whole, d.evaluation_append _ _ p]
    rfl
  · have whole : d.Walks (before ++ s :: word) (visited ++ visited') h :=
      ⟨start, initial, path.append edge ((d.walks_withInitial_iff t).mp rest)⟩
    rw [rest.stops hole, ← List.cons_append, ← List.append_assoc, whole.stops hole]
    rfl

/-- Up to where the word tries the slot for the first time, it walks as it did before the slot was
written. -/
theorem Visits.first_try (visits : d.Visits word visited) (coherent : d.Coherent)
    (live : d.find? p = some q) (target : Option StateId)
    (tried : (visited.zip word)[i]? = some (p, s)) (first : (p, s) ∉ (visited.zip word).take i) :
    ∃ visited', word = word.take i ++ s :: word.drop (i + 1) ∧ d.Walks (word.take i) visited' p ∧
      (d.redirectState p q s target).Walks (word.take i) visited' p := by
  obtain ⟨before, after, visited', rfl, rfl, ⟨start, initial, path⟩, slots⟩ := visits.tries tried
  rw [← slots] at first
  have taken : (before ++ s :: after).take before.length = before := List.take_left
  have dropped : (before ++ s :: after).drop (before.length + 1) = after := by simp
  rw [taken, dropped]
  exact ⟨visited', rfl, ⟨start, initial, path⟩,
    ⟨start, initial, path.redirectState coherent live target first⟩⟩

theorem transition?_redirectState_self (live : d.find? p = some q) (s : Symbol)
    (target : Option StateId) : (d.redirectState p q s target).transition? p s = target := by
  rw [transition?_redirectState live, if_pos ⟨rfl, rfl⟩]

theorem Visits.result_cleared (visits : d.Visits word visited) (coherent : d.Coherent)
    (live : d.find? p = some q) (tried : (visited.zip word)[i]? = some (p, s))
    (first : (p, s) ∉ (visited.zip word).take i) :
    ((d.redirectState p q s none).evaluateSymbols word).result =
      .error (.missingTransition (d.nameOf p) (d.alphabet.charOf s)) := by
  obtain ⟨visited', split, _, walks⟩ := visits.first_try coherent live none tried first
  have hole : (d.redirectState p q s none).Hole p s := by
    intro next edge
    simp [transition?_redirectState_self live] at edge
  rw [split, walks.stops hole, coherent.nameOf_redirectState live]
  rfl

theorem Visits.result_set (visits : d.Visits word visited) (coherent : d.Coherent)
    (live : d.find? p = some q) (ends : d.contains t = true)
    (tried : (visited.zip word)[i]? = some (p, s)) (first : (p, s) ∉ (visited.zip word).take i) :
    ∃ e copy outcome, (d.evaluateSymbols (word.take i)).result = .ok e ∧ e.trace.last? = some p ∧
      ((d.redirectState p q s (some t)).setInitial t).result = .ok (copy, outcome) ∧
      ((d.redirectState p q s (some t)).evaluateSymbols word).result =
        (copy.evaluateSymbols (word.drop (i + 1))).result.map (·.afterTrace e.trace) := by
  obtain ⟨visited', split, before, walks⟩ := visits.first_try coherent live (some t) tried first
  have endsToo : (d.redirectState p q s (some t)).contains t = true := by
    rw [coherent.contains_redirectState live, ends]
  have stepped := (coherent.redirectState live s (some t)).result_step walks
    (transition?_redirectState_self live s _) endsToo (word.drop (i + 1))
  rw [← split, evaluation, coherent.nameOf_redirectState live] at stepped
  exact ⟨_, _, _, evaluateSymbols_of_walks before, before.last?_evaluation,
    setInitial_eq_ok_iff.mpr ⟨endsToo, rfl, rfl⟩, stepped⟩

/-- A word that is run to its end has met no hole, so filling one does not show in it. -/
theorem Coherent.evaluated_filled (coherent : d.Coherent) (live : d.find? p = some q)
    (hole : d.Hole p s) (target : Option StateId) (evaluated : (d.evaluateSymbols word).result = .ok e) :
    ((d.redirectState p q s target).evaluateSymbols word).result = .ok e := by
  obtain ⟨visited, last, walks, rfl⟩ := coherent.evaluateSymbols_eq_ok_iff.mp evaluated
  have visits : d.Visits word visited := .walked walks
  obtain ⟨_, _, path⟩ := walks
  have untried : (p, s) ∉ visited.zip word := fun tried => path.not_hole tried hole
  rw [visits.result_eq (visits.keeps_redirectState coherent live target untried), evaluated]

/-- A word that never tries a slot of a live state, the hole at which it may stop included, is run as
before when the slot has been set or cleared. Of a word that does, the part before its first try is run
as before. With the slot cleared it fails there, at that state and symbol; with the slot set to `t` its
trace goes on at `t`, and from there it ends as the rest of the word does in a copy that begins at `t`.
So a word that could be run before a hole was filled is run in the same way after. -/
theorem evaluation_after_redirection (arises : d.Arises) (source : d.contains p = true)
    (ends : d.contains t = true) (s : Symbol) :
    ∃ set cleared, (d.connect p s t).result = .ok set ∧ (d.disconnect p s).result = .ok cleared ∧
      (∀ word, (∃ visited, d.Visits word visited) ∧ ∀ visited, d.Visits word visited →
        (∀ e, (d.evaluateSymbols word).result = .ok e → e.trace.states = visited) ∧
        ((p, s) ∉ visited.zip word →
          (set.evaluateSymbols word).result = (d.evaluateSymbols word).result ∧
          (cleared.evaluateSymbols word).result = (d.evaluateSymbols word).result) ∧
        ∀ i, (visited.zip word)[i]? = some (p, s) → (p, s) ∉ (visited.zip word).take i →
          (cleared.evaluateSymbols word).result =
            .error (.missingTransition (d.nameOf p) (d.alphabet.charOf s)) ∧
          ∃ e copy outcome, (d.evaluateSymbols (word.take i)).result = .ok e ∧
            e.trace.last? = some p ∧ (set.setInitial t).result = .ok (copy, outcome) ∧
            (set.evaluateSymbols word).result =
              (copy.evaluateSymbols (word.drop (i + 1))).result.map (·.afterTrace e.trace)) ∧
      ((p, s) ∈ d.holes → ∀ word e, (d.evaluateSymbols word).result = .ok e →
        (set.evaluateSymbols word).result = .ok e) := by
  have coherent := arises.coherent
  obtain ⟨q, live⟩ := contains_iff.mp source
  refine ⟨_, _, connect_eq_ok_iff.mpr ⟨ends, q, live, rfl⟩,
    disconnect_eq_ok_iff.mpr ⟨q, live, rfl⟩, ?_, ?_⟩
  · intro word
    refine ⟨coherent.exists_visits word, ?_⟩
    intro visited visits
    refine ⟨fun e => visits.trace_states, ?_, ?_⟩
    · intro untried
      exact ⟨visits.result_eq (visits.keeps_redirectState coherent live _ untried),
        visits.result_eq (visits.keeps_redirectState coherent live _ untried)⟩
    · intro i tried first
      exact ⟨visits.result_cleared coherent live tried first,
        visits.result_set coherent live ends tried first⟩
  · intro hole word e evaluated
    exact coherent.evaluated_filled live (mem_holes.mp hole).2 _ evaluated

/-- The edge left behind in the sample is set to where it starts, and is then used again and again. -/
theorem sample_redirected : sample.Arises ∧ sample.contains ⟨0, 0⟩ = true ∧
    ∃ set cleared, (sample.connect ⟨0, 0⟩ .b ⟨0, 0⟩).result = .ok set ∧
      (sample.disconnect ⟨0, 0⟩ .b).result = .ok cleared ∧
      (∃ e, (set.evaluateSymbols [.a, .b, .b, .b, .a]).result = .ok e ∧ e.verdict = .accepted ∧
        e.trace.names = ["p", "s", "p", "p", "p", "s"]) ∧
      (cleared.evaluateSymbols [.a, .b, .b, .b, .a]).result = .error (.missingTransition "p" 'b') ∧
      (set.evaluateSymbols [.a, .b]).result = (sample.evaluateSymbols [.a, .b]).result := by
  have walks : sample.Walks [.a, .b] [⟨0, 0⟩, ⟨0, 3⟩, ⟨0, 0⟩] ⟨0, 0⟩ :=
    ⟨_, rfl, .cons rfl rfl (.cons rfl rfl (.nil rfl))⟩
  have hole : sample.Hole ⟨0, 0⟩ .b := by
    rintro target ⟨⟩
    rfl
  obtain ⟨set, cleared, connected, disconnected, runs, _⟩ := evaluation_after_redirection sample_arises
    (show sample.contains ⟨0, 0⟩ = true from rfl) (show sample.contains ⟨0, 0⟩ = true from rfl) .b
  obtain ⟨stops, e, copy, outcome, evaluated, _, moved, goes⟩ :=
    ((runs [.a, .b, .b, .b, .a]).2 _ (.stopped walks hole)).2.2 2 rfl (by decide)
  cases connected
  cases moved
  cases evaluated
  exact ⟨sample_arises, rfl, _, cleared, rfl, disconnected, ⟨_, goes, rfl, rfl⟩, stops,
    (((runs [.a, .b]).2 _ (.walked walks)).2.1 (by decide)).1⟩

end Automaton
end BinaryAutomata
