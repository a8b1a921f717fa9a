/-! Slots addressed by index. Erasing leaves a gap, so a slot never changes its index. Every
operation is described by what `get?` reads afterwards. -/
namespace BinaryAutomata

structure Arena (α : Type) where
  slots : Array (Option α)
  deriving DecidableEq

namespace Arena

def empty : Arena α := ⟨#[]⟩

/-- Number of slots, gaps included. -/
def size (arena : Arena α) : Nat := arena.slots.size

def get? (arena : Arena α) (i : Nat) : Option α := arena.slots[i]?.join

/-- Makes slot `i` the last one and fills it: gaps are added below it where there are too few
slots, and slots from `i` on are dropped where there are too many. -/
def place (arena : Arena α) (i : Nat) (a : α) : Arena α :=
  ⟨(arena.slots.take i ++ Array.replicate (i - arena.size) none).push (some a)⟩

def replace (arena : Arena α) (i : Nat) (a : α) : Arena α := ⟨arena.slots.setIfInBounds i (some a)⟩

def erase (arena : Arena α) (i : Nat) : Arena α := ⟨arena.slots.setIfInBounds i none⟩

/-- The filled slots by ascending index. -/
def entries (arena : Arena α) : List (Nat × α) :=
  arena.slots.toList.zipIdx.filterMap fun slot => slot.1.map (slot.2, ·)

@[simp] theorem get?_empty (i : Nat) : (empty : Arena α).get? i = none := rfl

theorem lt_size_of_get? {arena : Arena α} (found : arena.get? i = some a) : i < arena.size := by
  by_cases bound : i < arena.slots.size
  · exact bound
  · simp [get?, bound] at found

theorem size_padded (arena : Arena α) (i : Nat) :
    (arena.slots.take i ++ Array.replicate (i - arena.size) none).size = i := by
  simp only [size, Array.take_eq_extract, Array.size_append, Array.size_replicate, Array.size_extract]
  omega

theorem size_place (arena : Arena α) (i : Nat) (a : α) : (arena.place i a).size = i + 1 := by
  rw [size, place, Array.size_push, size_padded]

theorem get?_place (arena : Arena α) (i j : Nat) (a : α) :
    (arena.place i a).get? j = if j = i then some a else if j < i then arena.get? j else none := by
  simp only [get?, place, Array.getElem?_push, size_padded]
  split
  · rfl
  · simp only [size, Array.take_eq_extract, Array.getElem?_append, Array.size_extract,
      Array.getElem?_extract, Array.getElem?_replicate, Nat.sub_zero, Nat.zero_add]
    by_cases inside : j < min i arena.slots.size
    · obtain ⟨below, bound⟩ := Nat.lt_min.mp inside
      simp [inside, below, bound]
    · have gap : j < i → arena.slots[j]? = none := fun below =>
        Array.getElem?_eq_none (Nat.not_lt.mp fun bound => inside (Nat.lt_min.mpr ⟨below, bound⟩))
      rw [if_neg inside]
      by_cases below : j < i
      · rw [if_pos below, gap below]; split <;> rfl
      · rw [if_neg below]; split <;> rfl

/-- A slot beyond the last one is filled without cutting off any other. -/
theorem get?_place_of_room {arena : Arena α} (room : arena.size ≤ i) (j : Nat) (a : α) :
    (arena.place i a).get? j = if j = i then some a else arena.get? j := by
  rw [get?_place]
  split
  · rfl
  · split
    · rfl
    · cases held : arena.get? j with
      | none => rfl
      | some b =>
        have bound := lt_size_of_get? held
        omega

@[simp] theorem size_replace (arena : Arena α) (i : Nat) (a : α) :
    (arena.replace i a).size = arena.size := by simp [replace, size]

theorem get?_replace (arena : Arena α) (j : Nat) (a : α) (bound : i < arena.size) :
    (arena.replace i a).get? j = if j = i then some a else arena.get? j := by
  simp only [get?, replace, Array.getElem?_setIfInBounds]
  by_cases same : j = i
  · subst j; simp [show i < arena.slots.size from bound]
  · simp [same, Ne.symm same]

theorem replace_replace (arena : Arena α) (i : Nat) (a b : α) :
    (arena.replace i a).replace i b = arena.replace i b := by
  simp [replace, Array.setIfInBounds_setIfInBounds]

theorem setIfInBounds_eq_self {items : Array α} (held : items[i]? = some a) :
    items.setIfInBounds i a = items := by
  obtain ⟨bound, same⟩ := Array.getElem?_eq_some_iff.mp held
  simp [Array.setIfInBounds, bound, ← same]

theorem replace_eq_self {arena : Arena α} (held : arena.get? i = some a) :
    arena.replace i a = arena :=
  congrArg Arena.mk (setIfInBounds_eq_self (Option.join_eq_some_iff.mp held))

/-- A slot that has just been filled can be filled anew, as if it had been filled so at once. -/
theorem replace_place (arena : Arena α) (i : Nat) (a b : α) :
    (arena.place i a).replace i b = arena.place i b := by
  have padded := arena.size_padded i
  simp only [replace, place]
  generalize arena.slots.take i ++ Array.replicate (i - arena.size) none = slots at padded ⊢
  subst i
  simp [Array.setIfInBounds, Array.set_push]

@[simp] theorem size_erase (arena : Arena α) (i : Nat) : (arena.erase i).size = arena.size := by
  simp [erase, size]

theorem get?_erase (arena : Arena α) (i j : Nat) :
    (arena.erase i).get? j = if j = i then none else arena.get? j := by
  simp only [get?, erase, Array.getElem?_setIfInBounds]
  by_cases same : j = i
  · subst j; by_cases bound : i < arena.slots.size <;> simp [bound]
  · simp [same, Ne.symm same]

theorem mem_entries {arena : Arena α} : (i, a) ∈ arena.entries ↔ arena.get? i = some a := by
  simp only [entries, get?, List.mem_filterMap, Prod.exists, List.mem_zipIdx_iff_getElem?,
    Option.map_eq_some_iff, Prod.mk.injEq, Array.getElem?_toList, Option.join_eq_some_iff]
  constructor
  · rintro ⟨slot, j, held, b, rfl, rfl, rfl⟩
    exact held
  · intro held
    exact ⟨some a, i, held, a, rfl, rfl, rfl⟩

theorem pairwise_entries (arena : Arena α) : arena.entries.Pairwise fun a b => a.1 < b.1 := by
  have ordered : arena.slots.toList.zipIdx.Pairwise fun a b => a.2 < b.2 := by
    rw [← List.pairwise_map (f := Prod.snd) (R := (· < ·)), List.zipIdx_map_snd]
    exact List.pairwise_lt_range'
  refine ordered.filterMap _ fun a b less i held j heldToo => ?_
  obtain ⟨_, _, rfl⟩ := Option.map_eq_some_iff.mp held
  obtain ⟨_, _, rfl⟩ := Option.map_eq_some_iff.mp heldToo
  exact less

end Arena
end BinaryAutomata
