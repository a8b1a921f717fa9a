import BinaryAutomata.Proofs.Interference
import BinaryAutomata.Proofs.Listing
import BinaryAutomata.Proofs.Removal
import BinaryAutomata.Proofs.Summary
import BinaryAutomata.Proofs.WalkLog

/-! Adding a state that is not to be initial. No edge points at the new state, for its index is beyond all
that any edge can hold, so no word comes to it: evaluation and the search go on as before, and the list of
holes gets longer by those of the new state. -/
namespace BinaryAutomata
namespace Automaton

variable {d d' : Automaton} {draft : Draft} {g h : StateId} {next : Nat} {s : Symbol}

section
variable (same : ∀ word, (d'.evaluateSymbols word).result = (d.evaluateSymbols word).result)
include same

theorem evaluate_congr (alphabet : d'.alphabet = d.alphabet) (input : String) :
    (d'.evaluate input).result = (d.evaluate input).result := by
  cases read : d.alphabet.parse input with
  | error cause => rw [evaluate_of_unread read, evaluate_of_unread (alphabet ▸ read)]
  | ok word => rw [evaluate_of_read read, evaluate_of_read (alphabet ▸ read), same]

theorem Reached.of_same (coherent : d.Coherent) (reached : d'.Reached h) : d.Reached h := by
  obtain ⟨word, visited, walks⟩ := reached
  have evaluated := (same word).symm.trans (evaluateSymbols_of_walks walks)
  obtain ⟨visited', last, walks', shown⟩ := coherent.evaluateSymbols_eq_ok_iff.mp evaluated
  have ends := walks.last?_evaluation
  rw [shown, walks'.last?_evaluation] at ends
  exact ⟨word, visited', Option.some.inj ends ▸ walks'⟩

/-- The members of the set that the search returns are told by the evaluations alone. -/
theorem Coherent.members_congr (coherent : d.Coherent) (coherentToo : d'.Coherent) :
    d'.reachable.toList = d.reachable.toList := by
  refine eq_of_listed d'.pairwise_reachable d.pairwise_reachable fun h => ?_
  rw [StateSet.mem_toList, StateSet.mem_toList, coherentToo.mem_reachable_iff,
    coherent.mem_reachable_iff]
  exact ⟨Reached.of_same same coherent, Reached.of_same (fun word => (same word).symm) coherentToo⟩

theorem Coherent.isEmpty_congr (coherent : d.Coherent) (coherentToo : d'.Coherent) :
    d'.isEmpty = d.isEmpty := by
  rw [Bool.eq_iff_iff, coherentToo.isEmpty_iff_rejects, coherent.isEmpty_iff_rejects]
  simp only [same]

end

theorem contains_added (room : d.arena.size ≤ next) (g : StateId) :
    (d.added ⟨d.tag, next⟩ draft).contains g = true ↔ g = ⟨d.tag, next⟩ ∨ d.contains g = true :=
  (rewritten_insertState (h := ⟨d.tag, next⟩) rfl room draft).contains_of_some g

theorem nameOf_added (room : d.arena.size ≤ next) (other : g ≠ ⟨d.tag, next⟩) :
    (d.added ⟨d.tag, next⟩ draft).nameOf g = d.nameOf g :=
  (rewritten_insertState (h := ⟨d.tag, next⟩) rfl room draft).nameOf_of_ne other

theorem isFinal_added (other : g ≠ h) : (d.added h draft).isFinal g = d.isFinal g := by
  rw [Bool.eq_iff_iff, isFinal_iff, isFinal_iff, added, withRoles]
  dsimp only
  split
  · simp [insertState, other]
  · rfl

theorem transition?_added (room : d.arena.size ≤ next) (g : StateId) (s : Symbol) :
    (d.added ⟨d.tag, next⟩ draft).transition? g s =
      if g = ⟨d.tag, next⟩ then draft.on s else d.transition? g s :=
  transition?_insertState (h := ⟨d.tag, next⟩) rfl room draft g s

theorem initial_added (plain : draft.isInitial = false) : (d.added h draft).initial = d.initial := by
  simp [added, withRoles, insertState, plain]

theorem state_ids_added (room : d.arena.size ≤ next) :
    (d.added ⟨d.tag, next⟩ draft).states.map (·.id) = d.states.map (·.id) ++ [⟨d.tag, next⟩] := by
  rw [added, state_ids_withRoles, state_ids_insertState rfl room]

namespace Settled

/-- An edge that is there already does not point at the new state. -/
theorem leadsTo?_added (settled : d.Settled next) (other : g ≠ ⟨d.tag, next⟩) (s : Symbol) :
    (d.added ⟨d.tag, next⟩ draft).leadsTo? g s = d.leadsTo? g s := by
  rw [leadsTo?, leadsTo?, transition?_added settled.room, if_neg other]
  cases edge : d.transition? g s with
  | none => rfl
  | some target =>
    have bound := settled.target_lt edge
    have older : target ≠ ⟨d.tag, next⟩ := by
      rintro rfl
      exact Nat.lt_irrefl _ bound
    have live : (d.added ⟨d.tag, next⟩ draft).contains target = d.contains target := by
      rw [Bool.eq_iff_iff, contains_added settled.room, or_iff_right older]
    simp only [Option.filter_some, live]

theorem hole_added_iff (settled : d.Settled next) (other : g ≠ ⟨d.tag, next⟩) :
    (d.added ⟨d.tag, next⟩ draft).Hole g s ↔ d.Hole g s := by
  rw [← leadsTo?_eq_none_iff, ← leadsTo?_eq_none_iff, settled.leadsTo?_added other]

/-- Whatever a word needs of the automaton, it still has. -/
theorem keeps_added (settled : d.Settled next) (plain : draft.isInitial = false)
    (visits : d.Visits word visited) :
    d.Keeps (d.added ⟨d.tag, next⟩ draft) word visited := by
  have other : ∀ g ∈ visited, g ≠ ⟨d.tag, next⟩ := fun g member =>
    ne_next_of_live settled.room (visits.live g member)
  exact {
    initial := initial_added plain
    alphabet := rfl
    live := fun g member => (contains_added settled.room g).mpr (.inr (visits.live g member))
    names := fun g member => nameOf_added settled.room (other g member)
    roles := fun g member => isFinal_added (other g member)
    edges := fun slot tried => by
      rw [transition?_added settled.room, if_neg (other _ (List.of_mem_zip tried).1)]
    holes := fun slot tried => (settled.hole_added_iff (other _ (List.of_mem_zip tried).1)).mpr }

theorem evaluateSymbols_added (settled : d.Settled next) (plain : draft.isInitial = false)
    (word : List Symbol) :
    ((d.added ⟨d.tag, next⟩ draft).evaluateSymbols word).result = (d.evaluateSymbols word).result := by
  obtain ⟨visited, visits⟩ := settled.coherent.exists_visits word
  exact visits.result_eq (settled.keeps_added plain visits)

/-- The new state comes last in every listing. Its targets are live, so its holes are its unset slots. -/
theorem holes_added (settled : d.Settled next) (live : ∀ s, ∀ target ∈ draft.on s, d.contains target = true) :
    (d.added ⟨d.tag, next⟩ draft).holes = d.holes ++
      (Symbol.all.filter fun s => (draft.on s).isNone).map (⟨d.tag, next⟩, ·) := by
  have own (s : Symbol) : (d.added ⟨d.tag, next⟩ draft).leadsTo? ⟨d.tag, next⟩ s = draft.on s := by
    rw [leadsTo?, transition?_added settled.room, if_pos rfl]
    cases given : draft.on s with
    | none => rfl
    | some target =>
      exact Option.filter_some_pos ((contains_added settled.room target).mpr (.inr (live s target given)))
  rw [holes_eq, holes_eq, state_ids_added settled.room, List.flatMap_append, List.flatMap_singleton]
  refine congrArg₂ (· ++ ·) (List.flatMap_congr fun g listed => ?_) ?_
  · simp only [settled.leadsTo?_added (ne_next_of_live settled.room (mem_state_ids.mp listed))]
  · simp only [own]

end Settled
end Automaton

namespace Session

/-- To evaluation an add of a state that is not to be initial does not show, whatever the name, the
targets and the other role of the state, and whatever handles clones and removals have used up: every
word and every input gives the same result, and the search finds the same states. The holes are those
of before and then the slots of the new state that are not set. -/
theorem added_state_is_unseen {session : Session} (run : Run .empty record session)
    (held : session.automaton? number = some d)
    (performed : session.perform? (.edit number (.add draft)) = some (next, report))
    (issued : report.result = .ok (.issued h)) (plain : draft.isInitial = false) :
    ∃ d', next.automaton? number = some d' ∧
      (∀ word, (d'.evaluateSymbols word).result = (d.evaluateSymbols word).result) ∧
      (∀ input, (d'.evaluate input).result = (d.evaluate input).result) ∧
      d'.reachable.toList = d.reachable.toList ∧ d'.isEmpty = d.isEmpty ∧
      d'.holes = d.holes ++ (Symbol.all.filter fun s => (draft.on s).isNone).map (h, ·) := by
  obtain ⟨member, found, rfl⟩ := Option.map_eq_some_iff.mp held
  have step : Performed _ _ next (.ok (.issued h)) := issued ▸ performed_of_perform? performed
  have settled := (run.lineage found).2.settled
  cases step with
  | edited copied edited =>
    cases Option.some.inj (copied.symm.trans found)
    have coherentToo := edited.coherent settled.coherent settled.room
    cases edited with
    | add _ _ onA onB _ =>
      have same := settled.evaluateSymbols_added plain
      have targets : ∀ s, ∀ target ∈ draft.on s, member.automaton.contains target = true := by
        intro s
        cases s with
        | a => exact onA
        | b => exact onB
      refine ⟨_, by simp [automaton?, member_commit found], same, ?_, ?_, ?_, ?_⟩
      · exact Automaton.evaluate_congr same rfl
      · exact Automaton.Coherent.members_congr same settled.coherent coherentToo
      · exact Automaton.Coherent.isEmpty_congr same settled.coherent coherentToo
      · exact settled.holes_added targets

/-- The state that is added to the sample has the name of the one that was removed, and is final. -/
theorem sampled_unseen : ∃ record next report d', Run .empty record sampled ∧
    sampled.automaton? 0 = some .sample ∧
    sampled.perform? (.edit 0 (.add ⟨"q", some ⟨0, 0⟩, none, false, true⟩)) = some (next, report) ∧
    report.result = .ok (.issued ⟨0, 4⟩) ∧ next.automaton? 0 = some d' ∧
    (∀ word, (d'.evaluateSymbols word).result = (Automaton.sample.evaluateSymbols word).result) ∧
    d'.reachable.toList = Automaton.sample.reachable.toList ∧
    d'.holes = [(⟨0, 0⟩, .b), (⟨0, 3⟩, .a), (⟨0, 4⟩, .b)] := by
  obtain ⟨record, run⟩ := sampled_run
  obtain ⟨d', held, same, _, members, _, holes⟩ := added_state_is_unseen run
    (show sampled.automaton? 0 = some .sample from rfl)
    (show sampled.perform? (.edit 0 (.add ⟨"q", some ⟨0, 0⟩, none, false, true⟩)) = some (_, _) from rfl)
    rfl rfl
  exact ⟨record, _, _, d', run, rfl, rfl, rfl, held, same, members, holes⟩

end Session
end BinaryAutomata
