import BinaryAutomata.Automaton.Basic

/-! Edges of an automaton. An edge can be followed while its target is live; a slot that is
unset or dangles is a hole. -/
namespace BinaryAutomata.Automaton

/-- Where the edge points, be the target live or not. -/
def transition? (d : Automaton) (h : StateId) (s : Symbol) : Option StateId :=
  (d.find? h).bind (·.on s)

/-- The live target of `q` on `s`. -/
def follow? (d : Automaton) (q : State) (s : Symbol) : Option (StateId × State) :=
  (q.on s).bind fun target => (d.find? target).map (target, ·)

theorem follow?_eq_some_iff {d : Automaton} :
    d.follow? q s = some (target, next) ↔ q.on s = some target ∧ d.find? target = some next := by
  simp only [follow?, Option.bind_eq_some_iff, Option.map_eq_some_iff, Prod.mk.injEq]
  constructor
  · rintro ⟨h, edge, p, live, rfl, rfl⟩
    exact ⟨edge, live⟩
  · rintro ⟨edge, live⟩
    exact ⟨target, edge, next, live, rfl, rfl⟩

/-- Every set edge with its source and symbol, by ascending source. -/
def transitions (d : Automaton) : List (StateId × Symbol × StateId) :=
  d.states.flatMap fun v => Symbol.all.filterMap fun s => (v.state.on s).map (v.id, s, ·)

/-- Every slot of a live state that no word can pass, by ascending state. -/
def holes (d : Automaton) : List (StateId × Symbol) :=
  d.states.flatMap fun v =>
    (Symbol.all.filter fun s => (d.follow? v.state s).isNone).map (v.id, ·)

def isComplete (d : Automaton) : Bool := d.holes.isEmpty

end BinaryAutomata.Automaton
