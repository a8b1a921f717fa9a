import BinaryAutomata.Proofs.Search

/-! What is listed of an automaton, handle by handle. Its edges, its holes and the order of the search
depend on which states are live and where their edges point, and not on their names and roles. -/
namespace BinaryAutomata.Automaton

variable {d d' : Automaton} {h : StateId} {q : State} {s : Symbol}

/-- Where the edge of `h` on `s` leads, if its target is live. -/
def leadsTo? (d : Automaton) (h : StateId) (s : Symbol) : Option StateId :=
  (d.transition? h s).filter d.contains

theorem leadsTo?_eq (live : d.find? h = some q) (s : Symbol) :
    d.leadsTo? h s = (d.follow? q s).map (·.1) := by
  rw [leadsTo?, transition?_eq live, follow?]
  cases q.on s with
  | none => rfl
  | some target => cases live : d.find? target <;> simp [contains, live]

theorem leadsTo?_eq_none_iff : d.leadsTo? h s = none ↔ d.Hole h s := by
  simp [leadsTo?, Hole, Option.filter_eq_none_iff]

/-- What is listed state by state is listed by handle. -/
theorem flatMap_states {entries : StateView → List α} {entriesOf : StateId → List α}
    (same : ∀ h q, d.find? h = some q → entries (d.view h q) = entriesOf h) :
    d.states.flatMap entries = (d.states.map (·.id)).flatMap entriesOf := by
  rw [List.flatMap_map]
  refine List.flatMap_congr fun v listed => ?_
  obtain ⟨q, live, seen⟩ := state?_eq_some_iff.mp (mem_states.mp listed)
  rw [seen]
  exact same v.id q live

theorem transitions_eq (d : Automaton) : d.transitions =
    (d.states.map (·.id)).flatMap fun h =>
      Symbol.all.filterMap fun s => (d.transition? h s).map (h, s, ·) := by
  refine flatMap_states fun h q live => ?_
  simp only [transition?_eq live]
  rfl

theorem holes_eq (d : Automaton) : d.holes =
    (d.states.map (·.id)).flatMap fun h =>
      (Symbol.all.filter fun s => (d.leadsTo? h s).isNone).map (h, ·) := by
  refine flatMap_states fun h q live => ?_
  simp only [leadsTo?_eq live, Option.isNone_map]
  rfl

theorem successors_eq (d : Automaton) (h : StateId) :
    d.successors h = Symbol.all.filterMap (d.leadsTo? h) := by
  cases live : d.find? h with
  | none => simp [successors, live, leadsTo?, transition?]
  | some q => simp only [successors, live, funext (leadsTo?_eq live)]

/-- The search goes by edges alone, and so does what it takes for its bits. -/
theorem reachable_congr (tag : d'.tag = d.tag) (size : d'.arena.size = d.arena.size)
    (initial : d'.initial = d.initial) (leads : d'.leadsTo? = d.leadsTo?) :
    d'.reachable = d.reachable := by
  have successors : d'.successors = d.successors := by
    funext h
    rw [successors_eq, successors_eq, leads]
  have turn : d'.turn = d.turn := by
    funext search
    simp only [turn, successors]
  have turns : d'.turns = d.turns := by
    funext n
    induction n with
    | zero => rfl
    | succ n ih =>
      funext search
      simp only [turns, ih, turn]
  have start : d'.searchStart = d.searchStart := by simp only [searchStart, tag, size, initial]
  simp only [reachable, turns, start, size]

end BinaryAutomata.Automaton
