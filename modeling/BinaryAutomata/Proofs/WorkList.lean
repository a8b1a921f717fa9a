import BinaryAutomata.Proofs.Search

/-! The search as a loop that goes on while a state is queued, with a log of what it does to the states it
dequeues. Whatever the edges are, it ends: it expands the states that it returns, each of them once, and
discards those that were queued again. It takes at most two turns for each state that it returns and one
more, and further turns change nothing. -/
namespace BinaryAutomata

/-- What is done to a state when it leaves the queue. -/
inductive Turn where
  | expanded (h : StateId)
  | discarded (h : StateId)
  deriving DecidableEq

def Turn.state : Turn → StateId
  | .expanded h | .discarded h => h

/-- What a search may still have to dequeue: each slot without a mark may yet queue two states. -/
def Search.work (search : Search) : Nat :=
  2 * (search.marked.bits.size - search.marked.size) + search.queue.length

namespace Automaton

/-- The loop from one search to the search that it ends with, and its turns. Nothing limits their number. -/
inductive Loops (d : Automaton) : Search → List Turn → Search → Prop where
  | drained (drained : search.queue = []) : Loops d search [] search
  | discarded (queue : search.queue = h :: rest) (marked : search.marked.contains h = true)
      (later : Loops d ⟨search.marked, rest⟩ log last) : Loops d search (.discarded h :: log) last
  | expanded (queue : search.queue = h :: rest) (unmarked : search.marked.contains h = false)
      (later : Loops d ⟨search.marked.insert h, rest ++ (d.successors h).filter fun target =>
        !(search.marked.insert h).contains target⟩ log last) : Loops d search (.expanded h :: log) last

variable {d : Automaton} {search last : Search} {log : List Turn}

namespace Searching

theorem work_turn_lt (searching : d.Searching search) (pending : search.queue ≠ []) :
    (d.turn search).work < search.work := by
  have account := searching.turn_account pending
  have bits := searching.turn.bits.trans searching.bits.symm
  have marks := StateSet.size_le_bits (d.turn search).marked
  simp only [Search.work]
  omega

theorem exists_loops (searching : d.Searching search) : ∃ log last, d.Loops search log last := by
  -- The queue may grow, so the induction is on the work that is left, which every turn lessens.
  induction work : search.work using Nat.strongRecOn generalizing search with
  | ind n ih =>
    obtain ⟨drained, _⟩ | ⟨h, rest, queue, taken⟩ := turn_cases d search
    · exact ⟨[], search, .drained drained⟩
    · have less := searching.work_turn_lt (by simp [queue])
      obtain ⟨log, last, later⟩ := ih _ (work ▸ less) searching.turn rfl
      obtain ⟨marked, same⟩ | ⟨unmarked, same⟩ := taken
      · exact ⟨_, last, .discarded queue marked (same ▸ later)⟩
      · exact ⟨_, last, .expanded queue unmarked (same ▸ later)⟩

end Searching

namespace Loops

/-- A loop that takes a turn goes on from what the turn leaves. -/
theorem after_turn (loops : d.Loops search (first :: log) last) :
    search.queue ≠ [] ∧ d.Loops (d.turn search) log last := by
  cases loops with
  | discarded queue marked later => exact ⟨by simp [queue], turn_of_marked queue marked ▸ later⟩
  | expanded queue unmarked later => exact ⟨by simp [queue], turn_of_unmarked queue unmarked ▸ later⟩

theorem turns_eq (loops : d.Loops search log last) (enough : log.length ≤ limit) :
    d.turns limit search = last := by
  induction log generalizing search limit with
  | nil =>
    cases loops with
    | drained drained => exact Searching.turns_of_drained drained limit
  | cons first log ih =>
    cases limit with
    | zero => contradiction
    | succ limit =>
      rw [turns]
      exact ih loops.after_turn.2 (Nat.le_of_succ_le_succ enough)

theorem queue_turns_eq_nil_iff (loops : d.Loops search log last) (limit : Nat) :
    (d.turns limit search).queue = [] ↔ log.length ≤ limit := by
  induction log generalizing search limit with
  | nil =>
    cases loops with
    | drained drained => simp [Searching.turns_of_drained drained, drained]
  | cons first log ih =>
    cases limit with
    | zero => simpa [turns] using loops.after_turn.1
    | succ limit => simpa [turns] using ih loops.after_turn.2 limit

theorem length_le (loops : d.Loops search log last) (searching : d.Searching search) :
    log.length + 2 * search.marked.size ≤ 2 * last.marked.size + search.queue.length := by
  induction log generalizing search with
  | nil =>
    cases loops with
    | drained => simp
  | cons first log ih =>
    obtain ⟨pending, later⟩ := loops.after_turn
    have first := searching.turn_account pending
    have rest := ih later searching.turn
    rw [List.length_cons]
    omega

theorem dequeues_live (loops : d.Loops search log last) (searching : d.Searching search) :
    ∀ made ∈ log, d.contains made.state = true := by
  induction loops with
  | drained => simp
  | discarded queue marked _ ih =>
    have live := (searching.marked_reached marked).live
    exact List.forall_mem_cons.mpr ⟨live, ih (searching.drop queue marked)⟩
  | expanded queue _ _ ih =>
    have live := (searching.head_reached queue).live
    exact List.forall_mem_cons.mpr ⟨live, ih (searching.mark queue)⟩

/-- The states that the loop expands are those that it marks. -/
theorem count_expanded (loops : d.Loops search log last) (searching : d.Searching search) (g : StateId) :
    log.count (.expanded g) + (search.marked.contains g).toNat = (last.marked.contains g).toNat := by
  induction loops with
  | drained => simp
  | discarded queue marked _ ih => simpa using ih (searching.drop queue marked)
  | @expanded h _ _ _ _ queue unmarked _ ih =>
    have marks := searching.contains_insert queue g
    rw [← ih (searching.mark queue)]
    by_cases same : g = h
    · subst g
      rw [List.count_cons_self, unmarked, marks.mpr (.inl rfl)]
      rfl
    · have other : Turn.expanded h ≠ .expanded g := by simpa using Ne.symm same
      rw [List.count_cons_of_ne other, Bool.eq_iff_iff.mpr (marks.trans (or_iff_right same))]

theorem expanded_before (loops : d.Loops search log last) (searching : d.Searching search)
    (split : log = before ++ .discarded g :: after) :
    search.marked.contains g = true ∨ .expanded g ∈ before := by
  induction loops generalizing before with
  | drained => simp at split
  | discarded queue marked _ ih =>
    cases before with
    | nil =>
      cases split
      exact .inl marked
    | cons first before =>
      cases split
      exact (ih (searching.drop queue marked) rfl).imp_right (List.mem_cons_of_mem _)
  | expanded queue _ _ ih =>
    cases before with
    | nil => cases split
    | cons first before =>
      cases split
      obtain marked | earlier := ih (searching.mark queue) rfl
      · obtain rfl | marked := (searching.contains_insert queue g).mp marked
        · exact .inr List.mem_cons_self
        · exact .inl marked
      · exact .inr (List.mem_cons_of_mem _ earlier)

end Loops

theorem Coherent.marked_eq_reachable (coherent : d.Coherent) (loops : d.Loops d.searchStart log last) :
    last.marked = d.reachable := by
  have searching := coherent.searching.turns log.length
  rw [loops.turns_eq (Nat.le_refl _)] at searching
  have account := loops.length_le coherent.searching
  have start := d.length_queue_searchStart
  have marks := searching.bits ▸ StateSet.size_le_bits last.marked
  rw [reachable, loops.turns_eq (by omega)]

/-- The loop of the search comes to an end. All that it dequeues is live. What it discards it has expanded
before, and what it expands are the members of the set that it returns, each once. So two turns for each
member and one more are enough, and the set is the same if more are allowed. -/
theorem search_ends (arises : d.Arises) :
    (∃ log last, d.Loops d.searchStart log last) ∧
    ∀ log last, d.Loops d.searchStart log last →
      last.marked = d.reachable ∧
      (∀ made ∈ log, d.contains made.state = true) ∧
      (∀ before h after, log = before ++ .discarded h :: after → .expanded h ∈ before) ∧
      (∀ h, log.count (.expanded h) = (d.reachable.contains h).toNat) ∧
      log.length ≤ 2 * d.reachable.size + 1 ∧
      ∀ limit, ((d.turns limit d.searchStart).queue = [] ↔ log.length ≤ limit) ∧
        (log.length ≤ limit → (d.turns limit d.searchStart).marked = d.reachable) := by
  have coherent := arises.coherent
  have searching := coherent.searching
  refine ⟨searching.exists_loops, ?_⟩
  intro log last loops
  have whole := coherent.marked_eq_reachable loops
  have start := d.length_queue_searchStart
  refine ⟨whole, loops.dequeues_live searching, ?_, ?_, ?_, ?_⟩
  · intro before h after split
    simpa [searchStart] using loops.expanded_before searching split
  · intro h
    simpa [searchStart, whole] using loops.count_expanded searching h
  · have account := whole ▸ loops.length_le searching
    omega
  · intro limit
    refine ⟨loops.queue_turns_eq_nil_iff limit, ?_⟩
    intro enough
    rw [loops.turns_eq enough, whole]

/-- Both edges of the first state lead to the second, which leads back to itself and to a state that has
been removed. -/
def twin : Automaton where
  tag := 0
  alphabet := .standard
  arena := ⟨#[some ⟨"p", some ⟨0, 1⟩, some ⟨0, 1⟩⟩, some ⟨"q", some ⟨0, 1⟩, some ⟨0, 2⟩⟩, none]⟩
  names := ⟨[("q", ⟨0, 1⟩), ("p", ⟨0, 0⟩)]⟩
  initial := some ⟨0, 0⟩
  finals := []

/-- The second state is queued twice, and the second time discarded. -/
theorem twin_search_ends : twin.Arises ∧
    ∃ last, twin.Loops twin.searchStart [.expanded ⟨0, 0⟩, .expanded ⟨0, 1⟩, .discarded ⟨0, 1⟩] last ∧
      last.marked = twin.reachable ∧ 3 ≤ 2 * twin.reachable.size + 1 ∧
      ∀ limit, (twin.turns limit twin.searchStart).queue = [] ↔ 3 ≤ limit := by
  have arises : twin.Arises := arises_of_replay [.found .standard,
    .edit 0 (.add ⟨"p", none, none, true, false⟩), .edit 0 (.add ⟨"q", none, none, false, false⟩),
    .edit 0 (.add ⟨"r", none, none, false, false⟩), .edit 0 (.connect ⟨0, 0⟩ .a ⟨0, 1⟩),
    .edit 0 (.connect ⟨0, 0⟩ .b ⟨0, 1⟩), .edit 0 (.connect ⟨0, 1⟩ .a ⟨0, 1⟩),
    .edit 0 (.connect ⟨0, 1⟩ .b ⟨0, 2⟩), .edit 0 (.remove ⟨0, 2⟩)] 0 (by decide +kernel)
  have loops : twin.Loops twin.searchStart
      [.expanded ⟨0, 0⟩, .expanded ⟨0, 1⟩, .discarded ⟨0, 1⟩] ⟨⟨0, #[true, true, false]⟩, []⟩ :=
    .expanded rfl rfl (.expanded rfl rfl (.discarded rfl rfl (.drained rfl)))
  obtain ⟨whole, _, _, _, bound, drains⟩ := (search_ends arises).2 _ _ loops
  exact ⟨arises, _, loops, whole, bound, fun limit => (drains limit).1⟩

end Automaton
end BinaryAutomata
