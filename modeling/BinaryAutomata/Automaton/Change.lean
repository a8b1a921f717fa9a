import BinaryAutomata.Automaton.Basic

/-! Changes of an automaton, without the checks that guard them. Each is described by what
`find?` reads afterwards. -/
namespace BinaryAutomata

/-- What a new state is to be. -/
structure Draft where
  name : String
  onA : Option StateId
  onB : Option StateId
  isInitial : Bool
  isFinal : Bool
  deriving DecidableEq

namespace Automaton

/-- Fills the slot of `h` with a state without roles. -/
def insertState (d : Automaton) (h : StateId) (draft : Draft) : Automaton := { d with
  arena := d.arena.place h.index ⟨draft.name, draft.onA, draft.onB⟩
  names := d.names.insert draft.name h }

/-- Takes the roles and the name of `q` with it. Edges into the state stay behind and dangle. -/
def eraseState (d : Automaton) (h : StateId) (q : State) : Automaton := { d with
  arena := d.arena.erase h.index
  names := d.names.erase q.name
  initial := if d.initial = some h then none else d.initial
  finals := d.finals.erase h }

def renameState (d : Automaton) (h : StateId) (q : State) (name : String) : Automaton := { d with
  arena := d.arena.replace h.index { q with name }
  names := (d.names.erase q.name).insert name h }

def redirectState (d : Automaton) (h : StateId) (q : State) (s : Symbol) (target : Option StateId) :
    Automaton :=
  { d with arena := d.arena.replace h.index (q.redirect s target) }

theorem owner_of_find? {d : Automaton} (live : d.find? h = some q) : h.owner = d.tag := by
  unfold find? at live
  split at live
  · assumption
  · contradiction

theorem index_lt_of_find? {d : Automaton} (live : d.find? h = some q) : h.index < d.arena.size := by
  unfold find? at live
  split at live
  · exact Arena.lt_size_of_get? live
  · contradiction

theorem find?_insertState {d : Automaton} (own : h.owner = d.tag) (room : d.arena.size ≤ h.index)
    (draft : Draft) (g : StateId) : (d.insertState h draft).find? g =
      if g = h then some ⟨draft.name, draft.onA, draft.onB⟩ else d.find? g := by
  simp only [find?, insertState, Arena.get?_place_of_room room, StateId.ext_iff, own]
  by_cases kin : g.owner = d.tag <;> simp [kin]

theorem find?_eraseState {d : Automaton} (own : h.owner = d.tag) (q : State) (g : StateId) :
    (d.eraseState h q).find? g = if g = h then none else d.find? g := by
  simp only [find?, eraseState, Arena.get?_erase, StateId.ext_iff, own]
  by_cases kin : g.owner = d.tag <;> simp [kin]

theorem find?_renameState {d : Automaton} (live : d.find? h = some q) (name : String) (g : StateId) :
    (d.renameState h q name).find? g = if g = h then some { q with name } else d.find? g := by
  simp only [find?, renameState, Arena.get?_replace _ _ _ (index_lt_of_find? live), StateId.ext_iff,
    owner_of_find? live]
  by_cases kin : g.owner = d.tag <;> simp [kin]

theorem find?_redirectState {d : Automaton} (live : d.find? h = some q) (s : Symbol)
    (target : Option StateId) (g : StateId) :
    (d.redirectState h q s target).find? g =
      if g = h then some (q.redirect s target) else d.find? g := by
  simp only [find?, redirectState, Arena.get?_replace _ _ _ (index_lt_of_find? live), StateId.ext_iff,
    owner_of_find? live]
  by_cases kin : g.owner = d.tag <;> simp [kin]

end Automaton
end BinaryAutomata
