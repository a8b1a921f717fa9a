import BinaryAutomata.StateId

/-! The states of an automaton by name. A name has at most one entry. -/
namespace BinaryAutomata

structure NameIndex where
  entries : List (String × StateId)
  deriving DecidableEq

namespace NameIndex

def empty : NameIndex := ⟨[]⟩

def size (index : NameIndex) : Nat := index.entries.length

def find? (index : NameIndex) (name : String) : Option StateId :=
  (index.entries.find? (·.1 = name)).map (·.2)

def erase (index : NameIndex) (name : String) : NameIndex := ⟨index.entries.filter (·.1 ≠ name)⟩

/-- Replaces what the name stood for before. -/
def insert (index : NameIndex) (name : String) (h : StateId) : NameIndex :=
  ⟨(name, h) :: (index.erase name).entries⟩

@[simp] theorem find?_empty (name : String) : empty.find? name = none := rfl

theorem find?_erase (index : NameIndex) (name other : String) :
    (index.erase name).find? other = if other = name then none else index.find? other := by
  simp only [find?, erase]
  induction index.entries with
  | nil => simp
  | cons entry rest ih =>
    by_cases dropped : entry.1 = name
    · by_cases same : other = name
      · simp [same]
      · simpa [dropped, same, Ne.symm same] using ih
    · by_cases hit : entry.1 = other
      · simp [hit, hit ▸ dropped]
      · simpa [dropped, hit] using ih

theorem find?_insert (index : NameIndex) (name other : String) (h : StateId) :
    (index.insert name h).find? other = if other = name then some h else index.find? other := by
  by_cases same : other = name
  · simp [find?, insert, same]
  · have erased := index.find?_erase name other
    rw [if_neg same] at erased
    simpa [find?, insert, same, Ne.symm same] using erased

theorem mem_keys {index : NameIndex} :
    name ∈ index.entries.map Prod.fst ↔ ∃ h, index.find? name = some h := by
  rw [← Option.isSome_iff_exists, find?, Option.isSome_map, List.find?_isSome]
  simp

theorem nodup_erase {index : NameIndex} (distinct : (index.entries.map Prod.fst).Nodup)
    (name : String) : ((index.erase name).entries.map Prod.fst).Nodup :=
  distinct.sublist (List.filter_sublist.map _)

theorem nodup_insert {index : NameIndex} (distinct : (index.entries.map Prod.fst).Nodup)
    (name : String) (h : StateId) : ((index.insert name h).entries.map Prod.fst).Nodup := by
  have absent : name ∉ (index.erase name).entries.map Prod.fst := by simp [erase]
  exact List.nodup_cons.mpr ⟨absent, nodup_erase distinct name⟩

end NameIndex
end BinaryAutomata
