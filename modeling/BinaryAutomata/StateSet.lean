import BinaryAutomata.StateId

/-! Sets of states of one family, one bit an index. Two sets are equal if family, number of
bits and bits are; so equal members are not enough. -/
namespace BinaryAutomata

structure StateSet where
  owner : FamilyTag
  bits : Array Bool
  deriving DecidableEq

namespace StateSet

/-- The empty set of `capacity` bits. -/
def withCapacity (owner : FamilyTag) (capacity : Nat) : StateSet :=
  ⟨owner, Array.replicate capacity false⟩

def contains (set : StateSet) (h : StateId) : Bool :=
  h.owner = set.owner && set.bits[h.index]?.getD false

/-- Marks the index of `h`, with more bits if there are too few. -/
def insert (set : StateSet) (h : StateId) : StateSet :=
  let room := Array.replicate (h.index + 1 - set.bits.size) false
  { set with bits := (set.bits ++ room).setIfInBounds h.index true }

/-- The members by ascending index. -/
def toList (set : StateSet) : List StateId :=
  ((List.range set.bits.size).filter fun i => set.bits[i]?.getD false).map (⟨set.owner, ·⟩)

def size (set : StateSet) : Nat := set.bits.count true

def isEmpty (set : StateSet) : Bool := set.bits.all (· = false)

@[simp] theorem contains_withCapacity (owner : FamilyTag) (capacity : Nat) (h : StateId) :
    (withCapacity owner capacity).contains h = false := by
  simp only [contains, withCapacity, Array.getElem?_replicate]
  split <;> simp

/-- Within its bits a set changes by one bit alone. -/
theorem insert_of_inside {set : StateSet} (inside : h.index < set.bits.size) :
    set.insert h = { set with bits := set.bits.setIfInBounds h.index true } := by
  have room : h.index + 1 - set.bits.size = 0 := by omega
  simp [insert, room]

theorem contains_insert {set : StateSet} (own : h.owner = set.owner)
    (inside : h.index < set.bits.size) (g : StateId) :
    (set.insert h).contains g = true ↔ g = h ∨ set.contains g = true := by
  simp only [insert_of_inside inside, contains, Array.getElem?_setIfInBounds, StateId.ext_iff, own]
  by_cases same : g.index = h.index
  · by_cases kin : g.owner = set.owner <;> simp [same, inside, kin]
  · simp [same, Ne.symm same]

theorem size_insert {set : StateSet} (own : h.owner = set.owner) (inside : h.index < set.bits.size)
    (fresh : set.contains h = false) : (set.insert h).size = set.size + 1 := by
  have unset : set.bits[h.index] = false := by simpa [contains, own, inside] using fresh
  simp [insert_of_inside inside, size, Array.setIfInBounds, inside, Array.count_set, unset]

theorem size_le_bits (set : StateSet) : set.size ≤ set.bits.size := Array.count_le_size

theorem mem_toList {set : StateSet} : h ∈ set.toList ↔ set.contains h = true := by
  simp only [toList, List.mem_map, List.mem_filter, List.mem_range, contains, Bool.and_eq_true,
    decide_eq_true_eq]
  constructor
  · rintro ⟨i, ⟨_, marked⟩, rfl⟩
    exact ⟨rfl, marked⟩
  · rintro ⟨own, marked⟩
    refine ⟨h.index, ⟨?_, marked⟩, StateId.ext own.symm rfl⟩
    by_cases inside : h.index < set.bits.size
    · exact inside
    · simp [inside] at marked

theorem length_toList (set : StateSet) : set.toList.length = set.size := by
  have bits : (List.range set.bits.size).map (fun i => set.bits[i]?.getD false) = set.bits.toList := by
    refine List.ext_getElem (by simp) fun i _ inside => ?_
    simp at inside
    simp [inside]
  rw [toList, List.length_map, ← List.countP_eq_length_filter, size, ← Array.count_toList, ← bits,
    List.count, List.countP_map]
  congr 1
  funext i
  simp

theorem isEmpty_iff {set : StateSet} : set.isEmpty = true ↔ ∀ h, set.contains h = false := by
  simp only [isEmpty, Array.all_eq_true, decide_eq_true_eq]
  constructor
  · intro clear h
    by_cases inside : h.index < set.bits.size
    · simp [contains, inside, clear h.index inside]
    · simp [contains, inside]
  · intro none i inside
    simpa [contains, inside] using none ⟨set.owner, i⟩

end StateSet
end BinaryAutomata
