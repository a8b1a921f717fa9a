import BinaryAutomata.Proofs.Evaluation

/-! The states that a word visits, and the slots that it tries there. An evaluation depends on nothing
else: two automata that agree on them give the same result, whatever they hold besides. -/
namespace BinaryAutomata.Automaton

/-- The states that the word visits: those of its walk, or those up to the hole at which it stops. -/
inductive Visits (d : Automaton) : List Symbol → List StateId → Prop where
  | unset (unset : d.initial = none) : Visits d word []
  | walked (walks : d.Walks word visited last) : Visits d word visited
  | stopped (walks : d.Walks before visited h) (hole : d.Hole h s) :
      Visits d (before ++ s :: after) visited

/-- The second automaton has kept what matters to the word: the states that it visits in the first,
and the slots that it tries there. -/
structure Keeps (d d' : Automaton) (word : List Symbol) (visited : List StateId) : Prop where
  initial : d'.initial = d.initial
  alphabet : d'.alphabet = d.alphabet
  live : ∀ h ∈ visited, d'.contains h = true
  names : ∀ h ∈ visited, d'.nameOf h = d.nameOf h
  roles : ∀ h ∈ visited, d'.isFinal h = d.isFinal h
  edges : ∀ slot ∈ visited.zip word, d'.transition? slot.1 slot.2 = d.transition? slot.1 slot.2
  holes : ∀ slot ∈ visited.zip word, d.Hole slot.1 slot.2 → d'.Hole slot.1 slot.2

variable {d d' : Automaton} {word : List Symbol} {visited : List StateId}

namespace Path

theorem concat (path : Path d g word visited h) (rest : Path d h word' visited' last) :
    Path d g (word ++ word') (visited ++ visited'.tail) last := by
  induction path with
  | nil live =>
    cases rest with
    | nil => exact .nil live
    | cons live edge rest => exact .cons live edge rest
  | cons live edge _ ih => exact .cons live edge (ih rest)

theorem transfer (path : Path d g word visited h) (live : ∀ p ∈ visited, d'.contains p = true)
    (edges : ∀ slot ∈ visited.zip word,
      d'.transition? slot.1 slot.2 = d.transition? slot.1 slot.2) : Path d' g word visited h := by
  induction path with
  | nil => exact .nil (live _ List.mem_cons_self)
  | cons _ edge _ ih =>
    obtain ⟨first, live⟩ := List.forall_mem_cons.mp live
    obtain ⟨same, edges⟩ := List.forall_mem_cons.mp edges
    exact .cons first (same.trans edge) (ih live edges)

/-- How a path comes to a state after its first one. -/
theorem arrives (path : Path d g word visited h) (place : visited[k + 1]? = some q) :
    ∃ before s after p, word = before ++ s :: after ∧ before.length = k ∧
      Path d g before (visited.take (k + 1)) p ∧ d.transition? p s = some q := by
  induction path generalizing k with
  | nil => simp at place
  | @cons g s next word visited h live edge rest ih =>
    cases k with
    | zero =>
      have first : next = q := by
        cases rest <;> simpa using place
      exact ⟨[], s, word, g, rfl, rfl, .nil live, first ▸ edge⟩
    | succ k =>
      obtain ⟨before, t, after, p, rfl, rfl, path, arrival⟩ := ih place
      exact ⟨s :: before, t, after, p, rfl, rfl, .cons live edge path, arrival⟩

theorem last_visited (path : Path d g word visited h) : visited[word.length]? = some h := by
  have last := path.getLast?_visited
  rwa [List.getLast?_eq_getElem?, path.length_visited, Nat.add_sub_cancel] at last

/-- The slot of a hole after the path is the last one tried. -/
theorem zip_append (path : Path d g before visited h) (s : Symbol) (after : List Symbol) :
    visited.zip (before ++ s :: after) = visited.zip before ++ [(h, s)] := by
  have length := path.length_visited
  obtain ⟨front, rfl⟩ := List.getLast?_eq_some_iff.mp path.getLast?_visited
  have even : front.length = before.length := by simpa using length
  have short : (front ++ [h]).zip (before ++ []) = front.zip before ++ [h].zip [] :=
    List.zip_append even
  simp only [List.append_nil, List.zip_nil_right] at short
  rw [List.zip_append even, short]
  simp

end Path

theorem Walks.stops (walks : d.Walks before visited h) (hole : d.Hole h s) (after : List Symbol) :
    (d.evaluateSymbols (before ++ s :: after)).result =
      .error (.missingTransition (d.nameOf h) (d.alphabet.charOf s)) := by
  obtain ⟨q, live⟩ := contains_iff.mp walks.end_live
  rw [evaluateSymbols_of_hole walks live hole after, nameOf_eq live]

theorem Coherent.exists_visits (coherent : d.Coherent) (word : List Symbol) :
    ∃ visited, d.Visits word visited := by
  obtain unset | ⟨visited, last, walks⟩ | ⟨before, s, after, visited, h, q, rfl, walks, _, hole⟩ :=
    coherent.walks_or_fails word
  · exact ⟨[], .unset unset⟩
  · exact ⟨visited, .walked walks⟩
  · exact ⟨visited, .stopped walks hole⟩

namespace Visits

/-- How a word comes to a state after the first one that it visits. -/
theorem arrives (visits : d.Visits word visited) (place : visited[k + 1]? = some q) :
    ∃ before s after p, word = before ++ s :: after ∧ before.length = k ∧
      d.Walks before (visited.take (k + 1)) p ∧ d.transition? p s = some q := by
  cases visits with
  | unset => simp at place
  | walked walks =>
    obtain ⟨start, initial, path⟩ := walks
    obtain ⟨before, s, after, p, split, length, path, arrival⟩ := path.arrives place
    exact ⟨before, s, after, p, split, length, ⟨start, initial, path⟩, arrival⟩
  | stopped walks _ =>
    obtain ⟨start, initial, path⟩ := walks
    obtain ⟨before, s, after, p, rfl, length, path, arrival⟩ := path.arrives place
    exact ⟨before, s, _, p, List.append_assoc .., length, ⟨start, initial, path⟩, arrival⟩

theorem result_eq (visits : d.Visits word visited) (keeps : d.Keeps d' word visited) :
    (d'.evaluateSymbols word).result = (d.evaluateSymbols word).result := by
  cases visits with
  | unset unset => simp [evaluateSymbols, keeps.initial, unset, Report.fail]
  | @walked _ _ last walks =>
    have whole := walks
    obtain ⟨start, initial, path⟩ := walks
    have path' := path.transfer keeps.live keeps.edges
    have whole' : d'.Walks word visited last := ⟨start, keeps.initial.trans initial, path'⟩
    have same : d'.evaluation visited last = d.evaluation visited last := by
      have names : ∀ h ∈ visited, (⟨h, d'.nameOf h⟩ : Visit) = ⟨h, d.nameOf h⟩ := fun h member =>
        congrArg (Visit.mk h) (keeps.names h member)
      rw [evaluation, evaluation, List.map_congr_left names,
        keeps.roles last (List.mem_of_getLast? path.getLast?_visited)]
    rw [evaluateSymbols_of_walks whole, evaluateSymbols_of_walks whole', same]
  | @stopped before _ h s after walks hole =>
    have whole := walks
    obtain ⟨start, initial, path⟩ := walks
    have slots := path.zip_append s after
    have edges := keeps.edges
    have holes := keeps.holes
    rw [slots, List.forall_mem_append] at edges holes
    have whole' : d'.Walks before visited h :=
      ⟨start, keeps.initial.trans initial, path.transfer keeps.live edges.1⟩
    have hole' : d'.Hole h s := holes.2 (h, s) (List.mem_singleton_self _) hole
    rw [whole.stops hole, whole'.stops hole', keeps.alphabet,
      keeps.names h (List.mem_of_getLast? path.getLast?_visited)]

end Visits
end BinaryAutomata.Automaton
