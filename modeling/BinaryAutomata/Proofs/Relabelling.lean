import BinaryAutomata.Proofs.Emptiness

/-! Automata that differ in the indices of their states alone. As long as the indices stand in the same
order, nothing that can be asked of either tells them apart, but for the indices themselves. -/
namespace BinaryAutomata

section
variable (f : StateId → StateId)

def State.relabel (q : State) : State := { q with onA := q.onA.map f, onB := q.onB.map f }

def StateView.relabel (v : StateView) : StateView := { v with id := f v.id, state := v.state.relabel f }

def Visit.relabel (visit : Visit) : Visit := { visit with id := f visit.id }

def Trace.relabel (trace : Trace) : Trace := ⟨trace.visits.map (·.relabel f)⟩

def Evaluation.relabel (e : Evaluation) : Evaluation := { e with trace := e.trace.relabel f }

@[simp] theorem State.on_relabel (q : State) (s : Symbol) : (q.relabel f).on s = (q.on s).map f := by
  cases s <;> rfl

theorem State.relabel_redirect (q : State) (s : Symbol) (target : Option StateId) :
    (q.redirect s target).relabel f = (q.relabel f).redirect s (target.map f) := by
  cases s <;> rfl

end

theorem State.relabel_eq_self {f : StateId → StateId} {q : State}
    (same : ∀ s, ∀ target ∈ q.on s, f target = target) : q.relabel f = q := by
  have onA := Option.map_congr (same .a)
  have onB := Option.map_congr (same .b)
  rw [Option.map_id'] at onA onB
  simp only [State.relabel]
  exact congr (congrArg _ onA) onB

/-- The map leaves each handle in its family and keeps the order of the indices of those `known`. -/
structure Renumbering (f : StateId → StateId) (known : StateId → Prop) : Prop where
  owner (h : StateId) : (f h).owner = h.owner
  increasing {g h : StateId} : known g → known h → g.owner = h.owner → g.index < h.index →
    (f g).index < (f h).index

variable {f : StateId → StateId} {known : StateId → Prop} {g h : StateId}

theorem Renumbering.injective (renumbering : Renumbering f known) (first : known g) (second : known h)
    (same : f g = f h) : g = h := by
  have kin : g.owner = h.owner := by rw [← renumbering.owner g, same, renumbering.owner]
  obtain less | equal | more := Nat.lt_trichotomy g.index h.index
  · have increased := renumbering.increasing first second kin less
    simp [same] at increased
  · exact StateId.ext kin equal
  · have increased := renumbering.increasing second first kin.symm more
    simp [same] at increased

theorem Renumbering.eq_iff (renumbering : Renumbering f known) (first : known g) (second : known h) :
    f g = f h ↔ g = h :=
  ⟨renumbering.injective first second, congrArg f⟩

namespace Automaton

theorem pairwise_reachable (d : Automaton) :
    d.reachable.toList.Pairwise fun g h => g.index < h.index := by
  simp only [StateSet.toList, List.pairwise_map]
  exact List.pairwise_lt_range.filter _

/-- `d'` is `d` with other indices. The handles `known` are those that mean the same in either: the
live ones, those that edges point to, and any that mean nothing in either. -/
structure Renumbered (f : StateId → StateId) (known : StateId → Prop) (d d' : Automaton) : Prop where
  renumbering : Renumbering f known
  coherent : d.Coherent
  coherentToo : d'.Coherent
  tag : d'.tag = d.tag
  alphabet : d'.alphabet = d.alphabet
  live_known {h : StateId} : d.contains h = true → known h
  edge_known {h target : StateId} {s : Symbol} : d.transition? h s = some target → known target
  reads {h : StateId} : known h → d'.find? (f h) = (d.find? h).map (·.relabel f)
  onto {g : StateId} : d'.contains g = true → ∃ h, known h ∧ f h = g
  initial : d'.initial = d.initial.map f
  finals : d'.finals = d.finals.map f

namespace Renumbered

variable {d d' : Automaton} {p q : State}

theorem contains (renumbered : Renumbered f known d d') (named : known h) :
    d'.contains (f h) = d.contains h := by
  simp [Automaton.contains, renumbered.reads named]

theorem contains_too (renumbered : Renumbered f known d d') (named : known h)
    (held : d.contains h = live) : d'.contains (f h) = live :=
  (renumbered.contains named).trans held

theorem find?_of_live (renumbered : Renumbered f known d d') (live : d.find? h = some q) :
    d'.find? (f h) = some (q.relabel f) := by
  rw [renumbered.reads (renumbered.live_known (contains_iff.mpr ⟨q, live⟩)), live, Option.map_some]

theorem eq_relabel (renumbered : Renumbered f known d d') (live : d.find? h = some q)
    (liveToo : d'.find? (f h) = some p) : p = q.relabel f :=
  Option.some.inj (liveToo.symm.trans (renumbered.find?_of_live live))

theorem live_iff (renumbered : Renumbered f known d d') :
    d'.contains g = true ↔ ∃ h, d.contains h = true ∧ f h = g := by
  constructor
  · intro live
    obtain ⟨h, named, rfl⟩ := renumbered.onto live
    exact ⟨h, renumbered.contains named ▸ live, rfl⟩
  · rintro ⟨h, live, rfl⟩
    rwa [renumbered.contains (renumbered.live_known live)]

theorem isInitial (renumbered : Renumbered f known d d') (named : known h) :
    d'.isInitial (f h) = d.isInitial h := by
  rw [Bool.eq_iff_iff, isInitial_iff, isInitial_iff, renumbered.initial, Option.map_eq_some_iff]
  constructor
  · rintro ⟨g, initial, same⟩
    have live := renumbered.live_known (renumbered.coherent.initial_live initial)
    exact renumbered.renumbering.injective live named same ▸ initial
  · exact fun initial => ⟨h, initial, rfl⟩

theorem isFinal (renumbered : Renumbered f known d d') (named : known h) :
    d'.isFinal (f h) = d.isFinal h := by
  rw [Bool.eq_iff_iff, isFinal_iff, isFinal_iff, renumbered.finals, List.mem_map]
  constructor
  · rintro ⟨g, final, same⟩
    have live := renumbered.live_known (renumbered.coherent.finals_live final)
    exact renumbered.renumbering.injective live named same ▸ final
  · exact fun final => ⟨h, final, rfl⟩

theorem state? (renumbered : Renumbered f known d d') (named : known h) :
    d'.state? (f h) = (d.state? h).map (·.relabel f) := by
  simp only [Automaton.state?, renumbered.reads named, Option.map_map]
  congr 1
  funext q
  simp [view, StateView.relabel, renumbered.isInitial named, renumbered.isFinal named]

theorem transition? (renumbered : Renumbered f known d d') (named : known h) (s : Symbol) :
    d'.transition? (f h) s = (d.transition? h s).map f := by
  simp only [Automaton.transition?, renumbered.reads named]
  cases d.find? h <;> simp

theorem stateNamed? (renumbered : Renumbered f known d d') (name : String) :
    d'.stateNamed? name = (d.stateNamed? name).map f := by
  refine Option.ext fun g => ?_
  simp only [Automaton.stateNamed?, Option.map_eq_some_iff, renumbered.coherent.names_iff,
    renumbered.coherentToo.names_iff]
  constructor
  · rintro ⟨p, live, rfl⟩
    obtain ⟨h, named, rfl⟩ := renumbered.onto (contains_iff.mpr ⟨p, live⟩)
    rw [renumbered.reads named, Option.map_eq_some_iff] at live
    obtain ⟨q, live, rfl⟩ := live
    exact ⟨h, ⟨q, live, rfl⟩, rfl⟩
  · rintro ⟨h, ⟨q, live, rfl⟩, rfl⟩
    exact ⟨q.relabel f, renumbered.find?_of_live live, rfl⟩

/-- Live states are all of one family, so they keep their order. -/
theorem increasing (renumbered : Renumbered f known d d') (live : d.contains g = true)
    (liveToo : d.contains h = true) (less : g.index < h.index) : (f g).index < (f h).index := by
  obtain ⟨q, first⟩ := contains_iff.mp live
  obtain ⟨p, second⟩ := contains_iff.mp liveToo
  exact renumbered.renumbering.increasing (renumbered.live_known live) (renumbered.live_known liveToo)
    ((owner_of_find? first).trans (owner_of_find? second).symm) less

theorem state_ids (renumbered : Renumbered f known d d') :
    d'.states.map (·.id) = (d.states.map (·.id)).map f := by
  refine eq_of_listed d'.pairwise_state_ids ?_ fun g => ?_
  · rw [List.pairwise_map]
    exact d.pairwise_state_ids.imp_of_mem fun listed listedToo =>
      renumbered.increasing (mem_state_ids.mp listed) (mem_state_ids.mp listedToo)
  · rw [mem_state_ids, renumbered.live_iff, List.mem_map]
    simp only [mem_state_ids]

theorem states (renumbered : Renumbered f known d d') :
    d'.states = d.states.map (·.relabel f) := by
  have seen : ∀ h ∈ d.states.map (·.id), (d'.state? ∘ f) h = (d.state? h).map (·.relabel f) :=
    fun h listed => renumbered.state? (renumbered.live_known (mem_state_ids.mp listed))
  rw [← d'.filterMap_state_ids, renumbered.state_ids, List.filterMap_map, List.filterMap_congr seen,
    ← List.map_filterMap, d.filterMap_state_ids]

theorem size (renumbered : Renumbered f known d d') : d'.size = d.size := by
  rw [renumbered.coherentToo.size_eq_length_states, renumbered.states, List.length_map,
    renumbered.coherent.size_eq_length_states]

theorem initialState? (renumbered : Renumbered f known d d') :
    d'.initialState? = d.initialState?.map (·.relabel f) := by
  simp only [Automaton.initialState?, renumbered.initial]
  cases initial : d.initial with
  | none => rfl
  | some h => exact renumbered.state? (renumbered.live_known (renumbered.coherent.initial_live initial))

theorem initialName? (renumbered : Renumbered f known d d') : d'.initialName? = d.initialName? := by
  simp [Automaton.initialName?, renumbered.initialState?, Function.comp_def, StateView.relabel,
    State.relabel]

theorem finalStates (renumbered : Renumbered f known d d') :
    d'.finalStates = d.finalStates.map (·.relabel f) := by
  have seen : ∀ h ∈ d.finals, (d'.state? ∘ f) h = (d.state? h).map (·.relabel f) :=
    fun h final => renumbered.state? (renumbered.live_known (renumbered.coherent.finals_live final))
  rw [Automaton.finalStates, renumbered.finals, List.filterMap_map, List.filterMap_congr seen,
    ← List.map_filterMap, Automaton.finalStates]

theorem finalNames (renumbered : Renumbered f known d d') : d'.finalNames = d.finalNames := by
  simp [Automaton.finalNames, renumbered.finalStates, StateView.relabel, State.relabel]

theorem transitions (renumbered : Renumbered f known d d') : d'.transitions =
    d.transitions.map fun edge => (f edge.1, edge.2.1, f edge.2.2) := by
  simp only [Automaton.transitions, renumbered.states, List.flatMap_map, List.map_flatMap,
    List.map_filterMap, StateView.relabel, State.on_relabel, Option.map_map, Function.comp_def]

theorem follow? (renumbered : Renumbered f known d d') (live : d.find? h = some q) (s : Symbol) :
    d'.follow? (q.relabel f) s = (d.follow? q s).map fun next => (f next.1, next.2.relabel f) := by
  simp only [Automaton.follow?, State.on_relabel]
  cases edge : q.on s with
  | none => rfl
  | some target =>
    have named := renumbered.edge_known ((transition?_eq live s).trans edge)
    simp [renumbered.reads named, Function.comp_def]

theorem holes (renumbered : Renumbered f known d d') : d'.holes =
    d.holes.map fun hole => (f hole.1, hole.2) := by
  simp only [Automaton.holes, renumbered.states, List.flatMap_map, List.map_flatMap, List.map_map]
  refine List.flatMap_congr fun v listed => ?_
  obtain ⟨q, live, seen⟩ := state?_eq_some_iff.mp (mem_states.mp listed)
  have stuck : ∀ s, (d'.follow? (v.state.relabel f) s).isNone = (d.follow? v.state s).isNone := by
    intro s
    rw [seen]
    exact (congrArg Option.isNone (renumbered.follow? live s)).trans Option.isNone_map
  simp only [stuck, StateView.relabel, Function.comp_def]

theorem isComplete (renumbered : Renumbered f known d d') : d'.isComplete = d.isComplete := by
  simp [Automaton.isComplete, renumbered.holes]

/-- A walk goes on in either automaton as it does in the other, and logs the same: only names. -/
theorem walk (renumbered : Renumbered f known d d') (live : d.find? h = some q) (read : Nat)
    (word : List Symbol) :
    d'.walk read (f h) (q.relabel f) word = (·.relabel f) <$> d.walk read h q word := by
  induction word generalizing read h q with
  | nil =>
    have named := renumbered.live_known (contains_iff.mpr ⟨q, live⟩)
    simp [Automaton.walk, renumbered.isFinal named, Evaluation.relabel, Trace.relabel, Visit.relabel,
      State.relabel]
  | cons s word ih =>
    simp only [Automaton.walk, renumbered.follow? live s, renumbered.alphabet]
    cases followed : d.follow? q s with
    | none => rfl
    | some next =>
      obtain ⟨target, p⟩ := next
      have ends := (follow?_eq_some_iff.mp followed).2
      simp only [Option.map_some, ih ends]
      simp [Evaluation.after, Trace.after, Evaluation.relabel, Trace.relabel, Visit.relabel,
        State.relabel]

theorem evaluateSymbols (renumbered : Renumbered f known d d') (word : List Symbol) :
    d'.evaluateSymbols word = (·.relabel f) <$> d.evaluateSymbols word := by
  simp only [Automaton.evaluateSymbols, renumbered.initial]
  cases initial : d.initial with
  | none => rfl
  | some h =>
    obtain ⟨q, live⟩ := contains_iff.mp (renumbered.coherent.initial_live initial)
    simp only [Option.map_some, renumbered.find?_of_live live, live]
    exact renumbered.walk live 0 word

theorem evaluate (renumbered : Renumbered f known d d') (input : String) :
    d'.evaluate input = (·.relabel f) <$> d.evaluate input := by
  simp only [Automaton.evaluate, renumbered.alphabet, renumbered.evaluateSymbols, map_bind]

theorem accepts (renumbered : Renumbered f known d d') (input : String) :
    d'.accepts input = d.accepts input := by
  simp only [Automaton.accepts, renumbered.evaluate, Functor.map_map]
  rfl

theorem path (renumbered : Renumbered f known d d') (path : d.Path g word visited h) :
    d'.Path (f g) word (visited.map f) (f h) := by
  induction path with
  | nil live => exact .nil (renumbered.contains_too (renumbered.live_known live) live)
  | cons live edge _ ih =>
    have named := renumbered.live_known live
    exact .cons (renumbered.contains_too named live)
      (by rw [renumbered.transition? named, edge, Option.map_some]) ih

theorem path_back (renumbered : Renumbered f known d d') (path : d'.Path g' word visited' h')
    (live : d.contains g = true) (starts : f g = g') : ∃ visited h, d.Path g word visited h ∧ f h = h' := by
  induction path generalizing g with
  | nil => exact ⟨_, g, .nil live, starts⟩
  | cons _ edge rest ih =>
    subst starts
    rw [renumbered.transition? (renumbered.live_known live), Option.map_eq_some_iff] at edge
    obtain ⟨next, edge, same⟩ := edge
    have ends := rest.start_live
    rw [← same, renumbered.contains (renumbered.edge_known edge)] at ends
    obtain ⟨visited, h, path, last⟩ := ih ends same
    exact ⟨_, h, .cons live edge path, last⟩

theorem reached_iff (renumbered : Renumbered f known d d') :
    d'.Reached g ↔ ∃ h, d.Reached h ∧ f h = g := by
  constructor
  · rintro ⟨word, visited, start', initial, path⟩
    rw [renumbered.initial, Option.map_eq_some_iff] at initial
    obtain ⟨start, initial, starts⟩ := initial
    obtain ⟨visited, h, path, last⟩ :=
      renumbered.path_back path (renumbered.coherent.initial_live initial) starts
    exact ⟨h, ⟨word, visited, start, initial, path⟩, last⟩
  · rintro ⟨h, ⟨word, visited, start, initial, path⟩, rfl⟩
    exact ⟨word, _, f start, by rw [renumbered.initial, initial, Option.map_some],
      renumbered.path path⟩

theorem reachable (renumbered : Renumbered f known d d') :
    d'.reachable.toList = d.reachable.toList.map f := by
  have live : ∀ h ∈ d.reachable.toList, d.contains h = true := fun h listed =>
    (renumbered.coherent.mem_reachable_iff.mp (StateSet.mem_toList.mp listed)).live
  refine eq_of_listed d'.pairwise_reachable ?_ fun g => ?_
  · rw [List.pairwise_map]
    exact d.pairwise_reachable.imp_of_mem fun listed listedToo =>
      renumbered.increasing (live _ listed) (live _ listedToo)
  · simp only [List.mem_map, StateSet.mem_toList, renumbered.coherentToo.mem_reachable_iff,
      renumbered.coherent.mem_reachable_iff, renumbered.reached_iff]

theorem reaches (renumbered : Renumbered f known d d') (named : known h) :
    d'.reachable.contains (f h) = d.reachable.contains h := by
  rw [Bool.eq_iff_iff, renumbered.coherentToo.mem_reachable_iff, renumbered.coherent.mem_reachable_iff,
    renumbered.reached_iff]
  constructor
  · rintro ⟨g, reached, same⟩
    exact renumbered.renumbering.injective (renumbered.live_known reached.live) named same ▸ reached
  · exact fun reached => ⟨h, reached, rfl⟩

theorem isEmpty (renumbered : Renumbered f known d d') : d'.isEmpty = d.isEmpty := by
  rw [Bool.eq_iff_iff, isEmpty_eq_true_iff, isEmpty_eq_true_iff, renumbered.finals, List.forall_mem_map]
  refine forall₂_congr fun h final => ?_
  rw [renumbered.reaches (renumbered.live_known (renumbered.coherent.finals_live final))]

end Renumbered

/-- Whatever is asked of the two automata, of the handles `known` in particular, the answers are the
same but for the handles in them. -/
structure AnswersAlike (f : StateId → StateId) (known : StateId → Prop) (d d' : Automaton) : Prop where
  alphabet : d'.alphabet = d.alphabet
  size : d'.size = d.size
  contains {h : StateId} : known h → d'.contains (f h) = d.contains h
  isInitial {h : StateId} : known h → d'.isInitial (f h) = d.isInitial h
  isFinal {h : StateId} : known h → d'.isFinal (f h) = d.isFinal h
  state? {h : StateId} : known h → d'.state? (f h) = (d.state? h).map (·.relabel f)
  transition? {h : StateId} : known h → ∀ s, d'.transition? (f h) s = (d.transition? h s).map f
  stateNamed? (name : String) : d'.stateNamed? name = (d.stateNamed? name).map f
  states : d'.states = d.states.map (·.relabel f)
  initialState? : d'.initialState? = d.initialState?.map (·.relabel f)
  initialName? : d'.initialName? = d.initialName?
  finalStates : d'.finalStates = d.finalStates.map (·.relabel f)
  finalNames : d'.finalNames = d.finalNames
  transitions : d'.transitions = d.transitions.map fun edge => (f edge.1, edge.2.1, f edge.2.2)
  holes : d'.holes = d.holes.map fun hole => (f hole.1, hole.2)
  isComplete : d'.isComplete = d.isComplete
  evaluateSymbols (word : List Symbol) :
    d'.evaluateSymbols word = (·.relabel f) <$> d.evaluateSymbols word
  evaluate (input : String) : d'.evaluate input = (·.relabel f) <$> d.evaluate input
  accepts (input : String) : d'.accepts input = d.accepts input
  reachable : d'.reachable.toList = d.reachable.toList.map f
  reachableSize : d'.reachable.size = d.reachable.size
  reaches {h : StateId} : known h → d'.reachable.contains (f h) = d.reachable.contains h
  isEmpty : d'.isEmpty = d.isEmpty

theorem Renumbered.answersAlike {d d' : Automaton} (renumbered : Renumbered f known d d') :
    AnswersAlike f known d d' where
  alphabet := renumbered.alphabet
  size := renumbered.size
  contains := renumbered.contains
  isInitial := renumbered.isInitial
  isFinal := renumbered.isFinal
  state? := renumbered.state?
  transition? := renumbered.transition?
  stateNamed? := renumbered.stateNamed?
  states := renumbered.states
  initialState? := renumbered.initialState?
  initialName? := renumbered.initialName?
  finalStates := renumbered.finalStates
  finalNames := renumbered.finalNames
  transitions := renumbered.transitions
  holes := renumbered.holes
  isComplete := renumbered.isComplete
  evaluateSymbols := renumbered.evaluateSymbols
  evaluate := renumbered.evaluate
  accepts := renumbered.accepts
  reachable := renumbered.reachable
  reachableSize := by
    rw [← StateSet.length_toList, renumbered.reachable, List.length_map, StateSet.length_toList]
  reaches := renumbered.reaches
  isEmpty := renumbered.isEmpty

end Automaton
end BinaryAutomata
