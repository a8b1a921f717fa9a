import BinaryAutomata.Automaton.Reachable
import BinaryAutomata.Proofs.Evaluation

/-! Breadth-first search finds the ends of walks and nothing else. What it has marked or queued is
the end of a walk, what it has marked leads to what it has marked or queued, and it has marked often
enough to have drained the queue when its turns are over. -/
namespace BinaryAutomata.Automaton

/-- Some word leads from the initial state to `h`. -/
def Reached (d : Automaton) (h : StateId) : Prop := ∃ word visited, d.Walks word visited h

/-- The search has marked `h` or is about to. -/
def Found (search : Search) (h : StateId) : Prop :=
  search.marked.contains h = true ∨ h ∈ search.queue

/-- What holds before and after every turn of the search. -/
structure Searching (d : Automaton) (search : Search) : Prop where
  owner : search.marked.owner = d.tag
  bits : search.marked.bits.size = d.arena.size
  marked_reached {h : StateId} : search.marked.contains h = true → d.Reached h
  queue_reached {h : StateId} : h ∈ search.queue → d.Reached h
  initial_found {h : StateId} : d.initial = some h → Found search h
  closed {h target : StateId} : search.marked.contains h = true → target ∈ d.successors h →
    Found search target

variable {d : Automaton} {search : Search}

theorem mem_successors : target ∈ d.successors h ↔
    ∃ s, d.transition? h s = some target ∧ d.contains target = true := by
  cases live : d.find? h with
  | none => simp [successors, transition?, live]
  | some q =>
    simp only [successors, live, List.mem_filterMap, Symbol.mem_all, true_and,
      Option.map_eq_some_iff, Prod.exists, follow?_eq_some_iff, contains_iff, transition?_eq live]
    constructor
    · rintro ⟨s, _, p, ⟨edge, ends⟩, rfl⟩
      exact ⟨s, edge, p, ends⟩
    · rintro ⟨s, edge, p, ends⟩
      exact ⟨s, target, p, ⟨edge, ends⟩, rfl⟩

theorem length_successors_le (d : Automaton) (h : StateId) : (d.successors h).length ≤ 2 := by
  cases live : d.find? h with
  | none => simp [successors, live]
  | some q =>
    simp only [successors, live]
    exact List.length_filterMap_le _ Symbol.all

theorem Reached.live (reached : d.Reached h) : d.contains h = true := by
  obtain ⟨_, _, walks⟩ := reached
  exact walks.end_live

theorem Reached.step (reached : d.Reached h) (edge : d.transition? h s = some target)
    (ends : d.contains target = true) : d.Reached target := by
  obtain ⟨word, visited, walks⟩ := reached
  exact ⟨_, _, walks.step edge ends⟩

theorem Reached.successor (reached : d.Reached h) (next : target ∈ d.successors h) :
    d.Reached target := by
  obtain ⟨s, edge, ends⟩ := mem_successors.mp next
  exact reached.step edge ends

theorem Found.dequeue (queue : search.queue = h :: rest) (held : marked.contains h = true)
    (keeps : ∀ g, search.marked.contains g = true → marked.contains g = true)
    (found : Found search g) : Found ⟨marked, rest⟩ g := by
  obtain old | queued := found
  · exact .inl (keeps g old)
  · rw [queue] at queued
    obtain rfl | queued := List.mem_cons.mp queued
    · exact .inl held
    · exact .inr queued

theorem Found.marked (found : Found search h) (drained : search.queue = []) :
    search.marked.contains h = true := by
  obtain marked | queued := found
  · exact marked
  · simp [drained] at queued

theorem turn_of_marked (queue : search.queue = h :: rest) (marked : search.marked.contains h = true) :
    d.turn search = ⟨search.marked, rest⟩ := by simp [turn, queue, marked]

theorem turn_of_unmarked (queue : search.queue = h :: rest)
    (unmarked : search.marked.contains h = false) : d.turn search = ⟨search.marked.insert h,
      rest ++ (d.successors h).filter fun target => !(search.marked.insert h).contains target⟩ := by
  simp [turn, queue, unmarked]

/-- A turn finds nothing to do, or drops a state it has marked before, or marks a new one. -/
theorem turn_cases (d : Automaton) (search : Search) :
    (search.queue = [] ∧ d.turn search = search) ∨
    ∃ h rest, search.queue = h :: rest ∧
      ((search.marked.contains h = true ∧ d.turn search = ⟨search.marked, rest⟩) ∨
        (search.marked.contains h = false ∧ d.turn search = ⟨search.marked.insert h,
          rest ++ (d.successors h).filter fun target => !(search.marked.insert h).contains target⟩)) := by
  cases queue : search.queue with
  | nil => exact .inl ⟨rfl, by simp [turn, queue]⟩
  | cons h rest =>
    refine .inr ⟨h, rest, rfl, ?_⟩
    cases marked : search.marked.contains h with
    | true => exact .inl ⟨rfl, turn_of_marked queue marked⟩
    | false => exact .inr ⟨rfl, turn_of_unmarked queue marked⟩

theorem Coherent.searching (coherent : d.Coherent) : d.Searching d.searchStart where
  owner := rfl
  bits := Array.size_replicate
  marked_reached marked := by simp [searchStart] at marked
  queue_reached {h} queued := by
    have initial : d.initial = some h := by simpa [searchStart] using queued
    exact ⟨[], [h], h, initial, .nil (coherent.initial_live initial)⟩
  initial_found initial := .inr (by simp [searchStart, initial])
  closed marked := by simp [searchStart] at marked

namespace Searching

theorem inside (searching : d.Searching search) (reached : d.Reached h) :
    h.owner = search.marked.owner ∧ h.index < search.marked.bits.size := by
  obtain ⟨q, live⟩ := contains_iff.mp reached.live
  exact ⟨(owner_of_find? live).trans searching.owner.symm, searching.bits ▸ index_lt_of_find? live⟩

theorem head_reached (searching : d.Searching search) (queue : search.queue = h :: rest) :
    d.Reached h := searching.queue_reached (queue ▸ List.mem_cons_self)

/-- Marking the state at the head of the queue changes no other mark. -/
theorem contains_insert (searching : d.Searching search) (queue : search.queue = h :: rest)
    (g : StateId) :
    (search.marked.insert h).contains g = true ↔ g = h ∨ search.marked.contains g = true := by
  obtain ⟨own, inside⟩ := searching.inside (searching.head_reached queue)
  exact StateSet.contains_insert own inside g

theorem drop (searching : d.Searching search) (queue : search.queue = h :: rest)
    (marked : search.marked.contains h = true) : d.Searching ⟨search.marked, rest⟩ := by
  have dropped : ∀ {g}, Found search g → Found ⟨search.marked, rest⟩ g :=
    Found.dequeue queue marked fun _ held => held
  exact {
    owner := searching.owner
    bits := searching.bits
    marked_reached := searching.marked_reached
    queue_reached := fun queued => searching.queue_reached (queue ▸ List.mem_cons_of_mem h queued)
    initial_found := fun initial => dropped (searching.initial_found initial)
    closed := fun source next => dropped (searching.closed source next) }

theorem mark (searching : d.Searching search) (queue : search.queue = h :: rest) :
    d.Searching ⟨search.marked.insert h,
      rest ++ (d.successors h).filter fun target => !(search.marked.insert h).contains target⟩ := by
  have reached := searching.head_reached queue
  obtain ⟨_, inside⟩ := searching.inside reached
  have marks := searching.contains_insert queue
  have moved : ∀ {g} (later : List StateId), Found search g →
      Found ⟨search.marked.insert h, rest ++ later⟩ g := by
    intro g later found
    have dequeued := found.dequeue queue ((marks h).mpr (.inl rfl)) fun g held => (marks g).mpr (.inr held)
    exact dequeued.imp_right (List.mem_append_left later)
  exact {
    owner := by
      rw [StateSet.insert_of_inside inside]
      exact searching.owner
    bits := by
      rw [StateSet.insert_of_inside inside]
      simpa using searching.bits
    marked_reached := by
      intro g marked
      obtain rfl | marked := (marks g).mp marked
      · exact reached
      · exact searching.marked_reached marked
    queue_reached := by
      intro g queued
      obtain queued | next := List.mem_append.mp queued
      · exact searching.queue_reached (queue ▸ List.mem_cons_of_mem h queued)
      · exact reached.successor (List.mem_of_mem_filter next)
    initial_found := fun initial => moved _ (searching.initial_found initial)
    closed := by
      intro source target marked next
      obtain rfl | marked := (marks source).mp marked
      · cases found : (search.marked.insert source).contains target with
        | true => exact .inl found
        | false => exact .inr (List.mem_append_right _ (List.mem_filter.mpr ⟨next, by simp [found]⟩))
      · exact moved _ (searching.closed marked next) }

theorem turn (searching : d.Searching search) : d.Searching (d.turn search) := by
  obtain ⟨_, same⟩ | ⟨h, rest, queue, ⟨marked, same⟩ | ⟨_, same⟩⟩ := turn_cases d search
  · rw [same]
    exact searching
  · rw [same]
    exact searching.drop queue marked
  · rw [same]
    exact searching.mark queue

theorem turns (searching : d.Searching search) (n : Nat) : d.Searching (d.turns n search) := by
  induction n generalizing search with
  | zero => exact searching
  | succ n ih => exact ih searching.turn

/-- A turn of a search that is not over drops an entry of the queue, or it marks a state for the at
most two entries by which the queue grows. -/
theorem turn_account (searching : d.Searching search) (pending : search.queue ≠ []) :
    (d.turn search).queue.length + 1 + 2 * search.marked.size ≤
      2 * (d.turn search).marked.size + search.queue.length := by
  obtain ⟨drained, _⟩ | ⟨h, rest, queue, ⟨_, same⟩ | ⟨unmarked, same⟩⟩ := turn_cases d search
  · exact absurd drained pending
  · simp only [same, queue, List.length_cons]
    omega
  · obtain ⟨own, inside⟩ := searching.inside (searching.head_reached queue)
    have grown := StateSet.size_insert own inside unmarked
    have queued := Nat.le_trans (List.length_filter_le
      (fun target => !(search.marked.insert h).contains target) (d.successors h))
      (d.length_successors_le h)
    simp only [same, queue, grown, List.length_append, List.length_cons]
    omega

theorem turns_of_drained (drained : search.queue = []) (n : Nat) : d.turns n search = search := by
  induction n with
  | zero => rfl
  | succ n ih =>
    have same : d.turn search = search := by simp [Automaton.turn, drained]
    rw [Automaton.turns, same, ih]

/-- A search that is not over after `n` turns has marked about half as many states at least. -/
theorem turns_account (searching : d.Searching search) (n : Nat) :
    (d.turns n search).queue = [] ∨
      n + (d.turns n search).queue.length + 2 * search.marked.size ≤
        2 * (d.turns n search).marked.size + search.queue.length := by
  induction n generalizing search with
  | zero => exact .inr (by simp [Automaton.turns]; omega)
  | succ n ih =>
    by_cases pending : search.queue = []
    · exact .inl ((turns_of_drained pending _).symm ▸ pending)
    · have first := searching.turn_account pending
      obtain drained | account := ih searching.turn
      · exact .inl drained
      · exact .inr (by simp only [Automaton.turns]; omega)

end Searching

theorem Coherent.reachable_searching (coherent : d.Coherent) :
    d.Searching (d.turns (2 * d.arena.size + 1) d.searchStart) := coherent.searching.turns _

theorem length_queue_searchStart (d : Automaton) : d.searchStart.queue.length ≤ 1 := by
  cases initial : d.initial <;> simp [searchStart, initial]

theorem Coherent.queue_drained (coherent : d.Coherent) :
    (d.turns (2 * d.arena.size + 1) d.searchStart).queue = [] := by
  obtain drained | account := coherent.searching.turns_account (2 * d.arena.size + 1)
  · exact drained
  · have searching := coherent.reachable_searching
    have marks := searching.bits ▸ StateSet.size_le_bits _
    have start := d.length_queue_searchStart
    exact List.length_eq_zero_iff.mp (by omega)

theorem Coherent.mem_reachable_iff (coherent : d.Coherent) :
    d.reachable.contains h = true ↔ d.Reached h := by
  have searching := coherent.reachable_searching
  have drained := coherent.queue_drained
  constructor
  · exact searching.marked_reached
  · rintro ⟨word, visited, start, initial, path⟩
    have marked : d.reachable.contains start = true :=
      (searching.initial_found initial).marked drained
    clear initial
    induction path with
    | nil => exact marked
    | cons live edge rest ih =>
      have next := mem_successors.mpr ⟨_, edge, rest.start_live⟩
      exact ih ((searching.closed marked next).marked drained)

/-- The set that the search returns holds the states in which some evaluation ends, so live states
only. Live targets of its members are in it, and it is empty only for want of an initial state. -/
theorem reachable_iff_evaluation_ends (arises : d.Arises) :
    (∀ h, d.reachable.contains h = true ↔
      ∃ word e, (d.evaluateSymbols word).result = .ok e ∧ e.trace.last? = some h) ∧
    (∀ h, d.reachable.contains h = true → d.contains h = true) ∧
    (∀ h s target, d.reachable.contains h = true → d.transition? h s = some target →
      d.contains target = true → d.reachable.contains target = true) ∧
    (d.reachable.isEmpty = true ↔ d.initial = none) := by
  have coherent := arises.coherent
  refine ⟨?_, ?_, ?_, ?_⟩
  · intro h
    rw [coherent.mem_reachable_iff]
    simp only [coherent.evaluateSymbols_eq_ok_iff]
    constructor
    · rintro ⟨word, visited, walks⟩
      exact ⟨word, _, ⟨visited, h, walks, rfl⟩, walks.last?_evaluation⟩
    · rintro ⟨word, _, ⟨visited, last, walks, rfl⟩, ends⟩
      cases Option.some.inj (walks.last?_evaluation.symm.trans ends)
      exact ⟨word, visited, walks⟩
  · intro h
    rw [coherent.mem_reachable_iff]
    exact Reached.live
  · intro h s target
    rw [coherent.mem_reachable_iff, coherent.mem_reachable_iff]
    intro reached edge ends
    exact reached.successor (mem_successors.mpr ⟨s, edge, ends⟩)
  · rw [StateSet.isEmpty_iff]
    constructor
    · intro empty
      cases initial : d.initial with
      | none => rfl
      | some start =>
        have live := coherent.initial_live initial
        have reached : d.Reached start := ⟨[], _, start, initial, .nil live⟩
        have marked := coherent.mem_reachable_iff.mpr reached
        simp [empty] at marked
    · intro none h
      rw [Bool.eq_false_iff]
      intro marked
      obtain ⟨_, _, start, initial, _⟩ := coherent.mem_reachable_iff.mp marked
      simp [none] at initial

/-- The edge left behind in the sample does not make its target reachable. -/
theorem reachable_sample : sample.Arises ∧ sample.reachable.contains ⟨0, 3⟩ = true ∧
    (∃ word e, (sample.evaluateSymbols word).result = .ok e ∧ e.trace.last? = some ⟨0, 3⟩) ∧
    ¬ ∃ word e, (sample.evaluateSymbols word).result = .ok e ∧ e.trace.last? = some ⟨0, 1⟩ := by
  have ends := (reachable_iff_evaluation_ends sample_arises).1
  exact ⟨sample_arises, by decide +kernel, (ends _).mp (by decide +kernel),
    fun found => absurd ((ends _).mpr found) (by decide +kernel)⟩

end BinaryAutomata.Automaton
