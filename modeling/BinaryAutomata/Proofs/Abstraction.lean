import BinaryAutomata.Proofs.Search

/-! What running words shows of an automaton, and what it cannot show. Two automata over one alphabet
answer alike on all inputs if and only if the states that can be reached have the same names and, name
by name, the same roles and edges. Handles, gaps and the states out of reach do not show. -/
namespace BinaryAutomata

/-- The part of an evaluation that does not speak of handles. -/
def Evaluation.shown (evaluation : Evaluation) : Verdict × List String :=
  (evaluation.verdict, evaluation.trace.names)

theorem Verdict.ofBool_inj {b c : Bool} : ofBool b = ofBool c ↔ b = c := by
  cases b <;> cases c <;> decide

namespace Automaton

/-- The verdict and the names of the states visited, or else the error. -/
def observe (d : Automaton) (input : String) : Except Error (Verdict × List String) :=
  (d.evaluate input).result.map Evaluation.shown

def observeSymbols (d : Automaton) (word : List Symbol) : Except Error (Verdict × List String) :=
  (d.evaluateSymbols word).result.map Evaluation.shown

/-- States of two automata that have the same role and whose edges on each symbol both lead to live
states of one name, or are both missing. -/
structure Alike (d e : Automaton) (h g : StateId) : Prop where
  role : d.isFinal h = e.isFinal g
  edges (s : Symbol) : (∃ target next, d.transition? h s = some target ∧
      d.contains target = true ∧ e.transition? g s = some next ∧ e.contains next = true ∧
      d.nameOf target = e.nameOf next) ∨
    (d.Hole h s ∧ e.Hole g s)

variable {d e : Automaton}

theorem observe_eq (d : Automaton) (input : String) :
    d.observe input = (d.alphabet.parse input).bind d.observeSymbols := by
  cases read : d.alphabet.parse input <;>
    simp [observe, evaluate, read, Report.ofExcept, Except.bind, Except.map, observeSymbols]

theorem observe_spell (d : Automaton) (word : List Symbol) :
    d.observe (d.alphabet.spell word) = d.observeSymbols word := by
  rw [observe_eq, d.alphabet.parse_spell]
  rfl

theorem observeSymbols_of_none (unset : d.initial = none) (word : List Symbol) :
    d.observeSymbols word = .error .noInitialState := by
  simp [observeSymbols, evaluateSymbols, unset, Report.fail, Except.map]

theorem observeSymbols_of_walks (walks : d.Walks word visited last) :
    d.observeSymbols word = .ok (.ofBool (d.isFinal last), visited.map d.nameOf) := by
  simp [observeSymbols, evaluateSymbols_of_walks walks, Except.map, Evaluation.shown, evaluation,
    Trace.names, Function.comp_def]

theorem observeSymbols_of_hole (walks : d.Walks before visited h) (hole : d.Hole h s)
    (after : List Symbol) : d.observeSymbols (before ++ s :: after) =
      .error (.missingTransition (d.nameOf h) (d.alphabet.charOf s)) := by
  obtain ⟨q, live⟩ := contains_iff.mp walks.end_live
  simp [observeSymbols, evaluateSymbols_of_hole walks live hole after, Except.map, nameOf_eq live]

namespace Coherent

theorem walks_of_observed (coherent : d.Coherent) (observed : d.observeSymbols word = .ok shown) :
    ∃ visited last, d.Walks word visited last ∧
      shown = (.ofBool (d.isFinal last), visited.map d.nameOf) := by
  obtain unset | ⟨visited, last, walks⟩ | ⟨before, s, after, visited, h, q, rfl, walks, _, hole⟩ :=
    coherent.walks_or_fails word
  · simp [observeSymbols_of_none unset] at observed
  · rw [observeSymbols_of_walks walks] at observed
    exact ⟨visited, last, walks, (Except.ok.inj observed).symm⟩
  · simp [observeSymbols_of_hole walks hole] at observed

theorem nameOf_inj (coherent : d.Coherent) (live : d.contains g = true)
    (liveToo : d.contains h = true) (same : d.nameOf g = d.nameOf h) : g = h := by
  obtain ⟨p, live⟩ := contains_iff.mp live
  obtain ⟨q, liveToo⟩ := contains_iff.mp liveToo
  rw [nameOf_eq live, nameOf_eq liveToo] at same
  have first : d.names.find? q.name = some g := coherent.names_iff.mpr ⟨p, live, same⟩
  have second : d.names.find? q.name = some h := coherent.names_iff.mpr ⟨q, liveToo, rfl⟩
  exact Option.some.inj (first.symm.trans second)

theorem initialName?_eq (coherent : d.Coherent) : d.initialName? = d.initial.map d.nameOf := by
  cases initial : d.initial with
  | none => simp [initialName?, initialState?, initial]
  | some h =>
    obtain ⟨q, live⟩ := contains_iff.mp (coherent.initial_live initial)
    simp [initialName?, initialState?, initial, state?_of_live live, view, nameOf_eq live]

end Coherent

/-- Where the answers agree on a word, so do the ends of its walks. -/
theorem Walks.matched (coherent : e.Coherent) (walks : d.Walks word visited h)
    (same : d.observeSymbols word = e.observeSymbols word) :
    ∃ visited' g, e.Walks word visited' g ∧ d.nameOf h = e.nameOf g ∧ d.isFinal h = e.isFinal g := by
  rw [observeSymbols_of_walks walks] at same
  obtain ⟨visited', g, walks', shown⟩ := coherent.walks_of_observed same.symm
  obtain ⟨verdict, names⟩ := Prod.mk.inj shown
  refine ⟨visited', g, walks', ?_, Verdict.ofBool_inj.mp verdict⟩
  obtain ⟨_, _, path⟩ := walks
  obtain ⟨_, _, path'⟩ := walks'
  have ends := congrArg List.getLast? names
  simpa [List.getLast?_map, path.getLast?_visited, path'.getLast?_visited] using ends

section
variable (same : ∀ word, d.observeSymbols word = e.observeSymbols word)
include same

theorem initial_matched (coherent : d.Coherent) (coherentToo : e.Coherent)
    (initial : d.initial = some h) : ∃ g, e.initial = some g ∧ d.nameOf h = e.nameOf g := by
  have start := Walks.of_initial initial (coherent.initial_live initial)
  obtain ⟨_, g, ⟨_, initialToo, path⟩, named, _⟩ := start.matched coherentToo (same [])
  cases path
  exact ⟨g, initialToo, named⟩

theorem reached_matched (coherent : e.Coherent) (reached : d.Reached h) :
    ∃ g, e.Reached g ∧ d.nameOf h = e.nameOf g := by
  obtain ⟨word, visited, walks⟩ := reached
  obtain ⟨visited', g, walks', named, _⟩ := walks.matched coherent (same word)
  exact ⟨g, ⟨word, visited', walks'⟩, named⟩

/-- Answers that agree on all words leave no room for a difference within reach: a word that leads to
the state leads on along its edges, and the answers for both words tell where. -/
theorem alike_of_observed (coherent : d.Coherent) (coherentToo : e.Coherent)
    (reached : d.Reached h) (reachedToo : e.Reached g) (named : d.nameOf h = e.nameOf g) :
    d.Alike e h g := by
  obtain ⟨word, visited, walks⟩ := reached
  obtain ⟨visited', g', walks', named', role⟩ := walks.matched coherentToo (same word)
  cases coherentToo.nameOf_inj walks'.end_live reachedToo.live (named'.symm.trans named)
  refine ⟨role, fun s => ?_⟩
  by_cases hole : d.Hole h s
  · right
    refine ⟨hole, ?_⟩
    -- An edge of the other state alone would give it a walk that this one has not.
    by_contra edge
    obtain ⟨next, edge, ends⟩ := not_hole_iff.mp edge
    obtain ⟨_, target, further, _, _⟩ :=
      (walks'.step edge ends).matched coherent (same (word ++ [s])).symm
    exact not_hole_iff.mpr ⟨target, walks.edge_of_step further⟩ hole
  · left
    obtain ⟨target, edge, ends⟩ := not_hole_iff.mp hole
    obtain ⟨_, next, further, namedNext, _⟩ :=
      (walks.step edge ends).matched coherentToo (same (word ++ [s]))
    obtain ⟨edge', ends'⟩ := walks'.edge_of_step further
    exact ⟨target, next, edge, ends, edge', ends', namedNext⟩

end

section
variable (alike : ∀ h g, d.Reached h → e.Reached g → d.nameOf h = e.nameOf g → d.Alike e h g)
include alike

/-- States of one name lead on, along every word, to states of one name. -/
theorem Path.in_step (path : Path d h word visited last) (reached : d.Reached h)
    (reachedToo : e.Reached g) (named : d.nameOf h = e.nameOf g) :
    ∃ visited' last', Path e g word visited' last' ∧
      visited.map d.nameOf = visited'.map e.nameOf ∧ d.nameOf last = e.nameOf last' := by
  induction path generalizing g with
  | nil live => exact ⟨[g], g, .nil reachedToo.live, by simp [named], named⟩
  | @cons h s middle word visited last live edge rest ih =>
    obtain ⟨target, next, edge', ends, edgeToo, endsToo, namedNext⟩ | ⟨hole, _⟩ :=
      (alike h g reached reachedToo named).edges s
    · cases Option.some.inj (edge.symm.trans edge')
      -- Both targets are within reach again, and so they are alike as well.
      obtain ⟨visited', last', path', names, namedLast⟩ :=
        ih (reached.step edge ends) (reachedToo.step edgeToo endsToo) namedNext
      exact ⟨_, last', .cons reachedToo.live edgeToo path', by simp [named, names], namedLast⟩
    · exact absurd rest.start_live (by simp [hole middle edge])

theorem Walks.in_step (coherent : e.Coherent)
    (initial : d.initial.map d.nameOf = e.initial.map e.nameOf) (walks : d.Walks word visited last) :
    ∃ visited' last', e.Walks word visited' last' ∧ visited.map d.nameOf = visited'.map e.nameOf ∧
      d.nameOf last = e.nameOf last' ∧ d.Alike e last last' := by
  have ⟨start, held, path⟩ := walks
  cases heldToo : e.initial with
  | none => simp [held, heldToo] at initial
  | some start' =>
    have named : d.nameOf start = e.nameOf start' := by simpa [held, heldToo] using initial
    have begins := Walks.of_initial held path.start_live
    have beginsToo := Walks.of_initial heldToo (coherent.initial_live heldToo)
    obtain ⟨visited', last', path', names, namedLast⟩ :=
      path.in_step alike ⟨_, _, begins⟩ ⟨_, _, beginsToo⟩ named
    have walks' : e.Walks word visited' last' := ⟨start', heldToo, path'⟩
    exact ⟨visited', last', walks', names, namedLast,
      alike last last' ⟨_, _, walks⟩ ⟨_, _, walks'⟩ namedLast⟩

/-- A word that has a walk in one has it in both, and one that has none stops in both at the states of
one name. -/
theorem observeSymbols_eq_of_alike (coherent : d.Coherent) (coherentToo : e.Coherent)
    (alphabets : d.alphabet = e.alphabet)
    (initial : d.initial.map d.nameOf = e.initial.map e.nameOf) (word : List Symbol) :
    d.observeSymbols word = e.observeSymbols word := by
  obtain unset | ⟨visited, last, walks⟩ | ⟨before, s, after, visited, h, q, rfl, walks, _, hole⟩ :=
    coherent.walks_or_fails word
  · rw [unset, Option.map_none, eq_comm, Option.map_eq_none_iff] at initial
    rw [observeSymbols_of_none unset, observeSymbols_of_none initial]
  · obtain ⟨visited', last', walks', names, _, ends⟩ := walks.in_step alike coherentToo initial
    rw [observeSymbols_of_walks walks, observeSymbols_of_walks walks', names, ends.role]
  · obtain ⟨visited', g, walks', _, named, ends⟩ := walks.in_step alike coherentToo initial
    obtain ⟨target, _, edge, live, _⟩ | ⟨_, holeToo⟩ := ends.edges s
    · simp [hole target edge] at live
    · rw [observeSymbols_of_hole walks hole, observeSymbols_of_hole walks' holeToo, named, alphabets]

end

/-- Two automata over one alphabet give the same answers, verdicts, names and errors, on all inputs
if and only if their initial states have the same name, their reachable states have the same names,
and reachable states of one name are alike. -/
theorem observe_eq_iff_alike (arises : d.Arises) (arisesToo : e.Arises)
    (alphabets : d.alphabet = e.alphabet) :
    (∀ input, d.observe input = e.observe input) ↔
      d.initialName? = e.initialName? ∧
      (∀ name, (∃ h, d.reachable.contains h = true ∧ d.nameOf h = name) ↔
        ∃ g, e.reachable.contains g = true ∧ e.nameOf g = name) ∧
      ∀ h g, d.reachable.contains h = true → e.reachable.contains g = true →
        d.nameOf h = e.nameOf g → d.Alike e h g := by
  have coherent := arises.coherent
  have coherentToo := arisesToo.coherent
  simp only [coherent.initialName?_eq, coherentToo.initialName?_eq, coherent.mem_reachable_iff,
    coherentToo.mem_reachable_iff]
  constructor
  · intro same
    have same : ∀ word, d.observeSymbols word = e.observeSymbols word := by
      intro word
      rw [← observe_spell, ← observe_spell, same, alphabets]
    have sameToo := fun word => (same word).symm
    refine ⟨?_, ?_, ?_⟩
    · cases initial : d.initial with
      | some h =>
        obtain ⟨g, initialToo, named⟩ := initial_matched same coherent coherentToo initial
        simp [initialToo, named]
      | none =>
        cases initialToo : e.initial with
        | none => rfl
        | some g =>
          obtain ⟨h, held, _⟩ := initial_matched sameToo coherentToo coherent initialToo
          simp [initial] at held
    · intro name
      constructor
      · rintro ⟨h, reached, rfl⟩
        obtain ⟨g, reachedToo, named⟩ := reached_matched same coherentToo reached
        exact ⟨g, reachedToo, named.symm⟩
      · rintro ⟨g, reached, rfl⟩
        obtain ⟨h, reachedToo, named⟩ := reached_matched sameToo coherent reached
        exact ⟨h, reachedToo, named.symm⟩
    · intro h g reached reachedToo named
      exact alike_of_observed same coherent coherentToo reached reachedToo named
  · rintro ⟨initial, _, alike⟩ input
    have same := observeSymbols_eq_of_alike alike coherent coherentToo alphabets initial
    rw [observe_eq, observe_eq, alphabets, funext same]

/-- An automaton like the sample as far as its words go. Its states have other indices, the edge that
dangles in the sample is not set in it, and one of its states is out of reach. -/
def lookalike : Automaton where
  tag := 0
  alphabet := .standard
  arena := ⟨#[some ⟨"s", none, some ⟨0, 2⟩⟩, some ⟨"x", some ⟨0, 0⟩, some ⟨0, 1⟩⟩,
    some ⟨"p", some ⟨0, 0⟩, none⟩]⟩
  names := ⟨[("p", ⟨0, 2⟩), ("x", ⟨0, 1⟩), ("s", ⟨0, 0⟩)]⟩
  initial := some ⟨0, 2⟩
  finals := [⟨0, 0⟩, ⟨0, 1⟩]

theorem lookalike_arises : lookalike.Arises :=
  arises_of_replay [.found .standard, .edit 0 (.add ⟨"s", none, none, false, true⟩),
    .edit 0 (.add ⟨"x", some ⟨0, 0⟩, none, false, true⟩), .edit 0 (.connect ⟨0, 1⟩ .b ⟨0, 1⟩),
    .edit 0 (.add ⟨"p", some ⟨0, 0⟩, none, true, false⟩),
    .edit 0 (.connect ⟨0, 0⟩ .b ⟨0, 2⟩)] 0 (by decide +kernel)

/-- The sample and its lookalike answer alike, for the two states within reach of either are alike. -/
theorem observe_lookalike : sample.Arises ∧ lookalike.Arises ∧
    sample.alphabet = lookalike.alphabet ∧ ∀ input, sample.observe input = lookalike.observe input := by
  have reached : ∀ h, sample.reachable.contains h = true → h = ⟨0, 0⟩ ∨ h = ⟨0, 3⟩ := by
    intro h marked
    have listed : sample.reachable.toList = [⟨0, 0⟩, ⟨0, 3⟩] := by decide +kernel
    simpa [listed] using StateSet.mem_toList.mpr marked
  have reachedToo : ∀ g, lookalike.reachable.contains g = true → g = ⟨0, 0⟩ ∨ g = ⟨0, 2⟩ := by
    intro g marked
    have listed : lookalike.reachable.toList = [⟨0, 0⟩, ⟨0, 2⟩] := by decide +kernel
    simpa [listed] using StateSet.mem_toList.mpr marked
  refine ⟨sample_arises, lookalike_arises, rfl,
    (observe_eq_iff_alike sample_arises lookalike_arises rfl).mpr ⟨rfl, ?_, ?_⟩⟩
  · intro name
    constructor
    · rintro ⟨h, marked, rfl⟩
      obtain rfl | rfl := reached h marked
      · exact ⟨⟨0, 2⟩, by decide +kernel, rfl⟩
      · exact ⟨⟨0, 0⟩, by decide +kernel, rfl⟩
    · rintro ⟨g, marked, rfl⟩
      obtain rfl | rfl := reachedToo g marked
      · exact ⟨⟨0, 3⟩, by decide +kernel, rfl⟩
      · exact ⟨⟨0, 0⟩, by decide +kernel, rfl⟩
  · intro h g marked markedToo named
    obtain rfl | rfl := reached h marked
    · obtain rfl | rfl := reachedToo g markedToo
      · exact absurd named (by decide +kernel)
      · refine ⟨rfl, fun s => ?_⟩
        cases s with
        | a => exact .inl ⟨⟨0, 3⟩, ⟨0, 0⟩, rfl, rfl, rfl, rfl, rfl⟩
        | b => exact .inr ⟨by rintro _ ⟨⟩; rfl, by rintro _ ⟨⟩⟩
    · obtain rfl | rfl := reachedToo g markedToo
      · refine ⟨rfl, fun s => ?_⟩
        cases s with
        | a => exact .inr ⟨by rintro _ ⟨⟩, by rintro _ ⟨⟩⟩
        | b => exact .inl ⟨⟨0, 0⟩, ⟨0, 2⟩, rfl, rfl, rfl, rfl, rfl⟩
      · exact absurd named (by decide +kernel)

end Automaton
end BinaryAutomata
