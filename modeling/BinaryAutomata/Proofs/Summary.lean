import BinaryAutomata.Proofs.EditLog
import BinaryAutomata.Proofs.Quoting

/-! The automaton as its log tells it: the states by index and name, and by name those that have roles.
Nothing is read but the levels, texts and fields of the lines. Whatever an edit changes about the states
and roles, the lines that it adds to the log change in the same way. -/
namespace BinaryAutomata

/-- What stands in a log. A renaming prints no line, so that it is noted at the place where it happened. -/
inductive Line where
  | logged (line : Event.Printed)
  | renamed (index : Nat) (name : String)
  deriving DecidableEq

/-- The index in the text of a handle. -/
def StateId.indexIn? (text : String) : Option Nat :=
  match text.toList with
  | '#' :: digits => Text.decimal? digits
  | _ => none

theorem StateId.indexIn?_text (h : StateId) : StateId.indexIn? h.text = some h.index := by
  simp [indexIn?, text, Text.decimal?_toDigits]

namespace Event.Printed

/-- What the line says in the field, if that is a text. -/
def text? (line : Event.Printed) (field : String) : Option String :=
  match line.fields.lookup field with
  | some (.text content) => some content
  | _ => none

def index? (line : Event.Printed) : Option Nat := (line.text? "id").bind StateId.indexIn?

end Event.Printed

/-- The states by ascending index, with their names, and the names of those that have roles. -/
structure Summary where
  states : List (Nat × String)
  initial : Option String
  finals : List String
  deriving DecidableEq

namespace Summary

def empty : Summary := ⟨[], none, []⟩

def nameAt? (summary : Summary) (index : Nat) : Option String :=
  (summary.states.find? (·.1 = index)).map (·.2)

def relabel (summary : Summary) (index : Nat) (name other : String) : String :=
  if summary.nameAt? index = some other then name else other

/-- Gives another name to the state at the index, wherever its name stands. -/
def rename (summary : Summary) (index : Nat) (name : String) : Summary where
  states := summary.states.map fun entry => (entry.1, summary.relabel index name entry.2)
  initial := summary.initial.map (summary.relabel index name)
  finals := summary.finals.map (summary.relabel index name)

/-- Follows a printed line. Those that tell of a change have one level and are told apart by their
texts. -/
def follow (summary : Summary) (line : Event.Printed) : Summary :=
  match line.level, line.message, line.text? "state" with
  | .debug, "added state", some name =>
      { summary with states := summary.states ++ (line.index?.map fun index => (index, name)).toList }
  | .debug, "removed state", some name => ⟨summary.states.filter (·.2 ≠ name),
      summary.initial.filter (· ≠ name), summary.finals.filter (· ≠ name)⟩
  | .debug, "cleared initial state", some name =>
      { summary with initial := summary.initial.filter (· ≠ name) }
  | .debug, "set initial state", some name => { summary with initial := some name }
  | .debug, "added final state", some name => { summary with finals := summary.finals ++ [name] }
  | _, _, _ => summary

theorem follow_addedState (summary : Summary) (name : String) (h : StateId) :
    summary.follow (Event.addedState name h).printed =
      { summary with states := summary.states ++ [(h.index, name)] } := by
  have index : (Event.addedState name h).printed.index? = some h.index := h.indexIn?_text
  have followed : summary.follow (Event.addedState name h).printed = { summary with states :=
    summary.states ++ ((Event.addedState name h).printed.index?.map fun i => (i, name)).toList } := rfl
  rw [followed, index, Option.map_some, Option.toList_some]

def after (summary : Summary) : Line → Summary
  | .logged line => summary.follow line
  | .renamed index name => summary.rename index name

/-- Follows the lines in turn. -/
def through (summary : Summary) (lines : List Line) : Summary := lines.foldl after summary

theorem through_append (summary : Summary) (lines more : List Line) :
    summary.through (lines ++ more) = (summary.through lines).through more := List.foldl_append

/-- What a log tells from its beginning. -/
def read (lines : List Line) : Summary := empty.through lines

end Summary

/-- What is noted of an edit beside the lines that it prints. -/
def Edit.note : Edit → List Line
  | .rename h name => [.renamed h.index name]
  | _ => []

/-- What an edit adds to the log. One that fails is not noted. -/
def Edit.lines (e : Edit) (report : Report α) : List Line :=
  report.printed.map .logged ++ match report.result with
    | .ok _ => e.note
    | .error _ => []

namespace Automaton

def summary (d : Automaton) : Summary :=
  ⟨d.states.map fun v => (v.id.index, v.state.name), d.initialName?, d.finalNames⟩

variable {d d' : Automaton} {h g : StateId} {q : State}

theorem nameOf_of_state? (seen : d.state? h = some v) : d.nameOf h = v.state.name := by
  obtain ⟨q, live, rfl⟩ := state?_eq_some_iff.mp seen
  exact nameOf_eq live

theorem eq_of_index_eq (live : d.contains g = true) (liveToo : d.contains h = true)
    (same : g.index = h.index) : g = h := by
  obtain ⟨_, live⟩ := contains_iff.mp live
  obtain ⟨_, liveToo⟩ := contains_iff.mp liveToo
  exact StateId.ext ((owner_of_find? live).trans (owner_of_find? liveToo).symm) same

theorem state_ids_insertState (own : h.owner = d.tag) (room : d.arena.size ≤ h.index)
    (draft : Draft) :
    (d.insertState h draft).states.map (·.id) = d.states.map (·.id) ++ [h] := by
  refine eq_of_listed (pairwise_state_ids _) (List.pairwise_append.mpr ?_) fun g => ?_
  · refine ⟨d.pairwise_state_ids, List.pairwise_singleton _ _, ?_⟩
    intro g listed _ last
    obtain ⟨_, live⟩ := contains_iff.mp (mem_state_ids.mp listed)
    have bound := index_lt_of_find? live
    cases List.mem_singleton.mp last
    omega
  · rw [mem_state_ids, (rewritten_insertState own room draft).contains_of_some, List.mem_append,
      mem_state_ids, List.mem_singleton, or_comm]

theorem state_ids_eraseState (live : d.find? h = some q) :
    (d.eraseState h q).states.map (·.id) = (d.states.map (·.id)).filter (· ≠ h) := by
  refine eq_of_listed (pairwise_state_ids _) (d.pairwise_state_ids.filter _) fun g => ?_
  rw [mem_state_ids, (rewritten_eraseState live).contains_of_none, List.mem_filter, mem_state_ids,
    decide_eq_true_eq, and_comm]

theorem state_ids_withRoles (d : Automaton) (h : StateId) (isInitial isFinal : Bool) :
    (d.withRoles h isInitial isFinal).states.map (·.id) = d.states.map (·.id) := by
  simp [states, withRoles, view, Function.comp_def]

theorem Rewritten.state_ids (rewritten : d.Rewritten h (some p) d') (live : d.find? h = some q) :
    d'.states.map (·.id) = d.states.map (·.id) := by
  refine eq_of_listed d'.pairwise_state_ids d.pairwise_state_ids fun g => ?_
  rw [mem_state_ids, rewritten.contains_of_live live, mem_state_ids]

theorem through_handover (d : Automaton) (name : String) :
    d.summary.through (((d.handover name).map Event.printed).map .logged) =
      { d.summary with initial := some name } := by
  rw [handover]
  cases d.initialName? <;> rfl

namespace Coherent

theorem finalNames_eq (coherent : d.Coherent) : d.finalNames = d.finals.map d.nameOf := by
  rw [← coherent.finalState_ids, finalNames, List.map_map]
  refine List.map_congr_left fun v listed => ?_
  exact (nameOf_of_state? (mem_finalStates.mp listed).2).symm

theorem summary_eq (coherent : d.Coherent) : d.summary =
    ⟨(d.states.map (·.id)).map fun h => (h.index, d.nameOf h), d.initial.map d.nameOf,
      d.finals.map d.nameOf⟩ := by
  have named : ∀ v ∈ d.states, (v.id.index, v.state.name) = (v.id.index, d.nameOf v.id) :=
    fun v listed => by rw [nameOf_of_state? (mem_states.mp listed)]
  rw [summary, coherent.initialName?_eq, coherent.finalNames_eq, List.map_congr_left named,
    List.map_map]
  rfl

theorem nameAt?_summary (coherent : d.Coherent) (live : d.contains h = true) :
    d.summary.nameAt? h.index = some (d.nameOf h) := by
  rw [coherent.summary_eq, Summary.nameAt?, List.find?_map, Option.map_map]
  cases found : (d.states.map (·.id)).find? ((·.1 = h.index) ∘ fun g => (g.index, d.nameOf g)) with
  | none => exact absurd (List.find?_eq_none.mp found h (mem_state_ids.mpr live)) (by simp)
  | some g =>
    have listed := mem_state_ids.mp (List.mem_of_find?_eq_some found)
    have same : g.index = h.index := by simpa using List.find?_some found
    rw [eq_of_index_eq listed live same]
    rfl

theorem summary_insertState (coherent : d.Coherent) (room : d.arena.size ≤ next)
    (named : draft.name ≠ "") (free : d.names.find? draft.name = none) :
    (d.insertState ⟨d.tag, next⟩ draft).summary =
      d.summary.follow (Event.addedState draft.name ⟨d.tag, next⟩).printed := by
  have inserted := coherent.insertState (h := ⟨d.tag, next⟩) rfl room named free
  have rewritten := rewritten_insertState (h := ⟨d.tag, next⟩) rfl room draft
  have same : ∀ g, d.contains g = true →
      (d.insertState ⟨d.tag, next⟩ draft).nameOf g = d.nameOf g :=
    fun g live => rewritten.nameOf_of_ne (ne_next_of_live room live)
  rw [inserted.summary_eq, coherent.summary_eq, Summary.follow_addedState, Summary.mk.injEq]
  refine ⟨?_, ?_, ?_⟩
  · rw [state_ids_insertState rfl room, List.map_append, List.map_singleton, rewritten.nameOf_self]
    congr 1
    refine List.map_congr_left fun g listed => ?_
    rw [same g (mem_state_ids.mp listed)]
  · exact Option.map_congr fun g held => same g (coherent.initial_live held)
  · exact List.map_congr_left fun g member => same g (coherent.finals_live member)

theorem nameOf_ne (coherent : d.Coherent) (live : d.find? h = some q) (liveToo : d.contains g = true)
    (other : g ≠ h) : d.nameOf g ≠ q.name := by
  rw [← nameOf_eq live]
  intro same
  exact other (coherent.nameOf_inj liveToo (contains_iff.mpr ⟨q, live⟩) same)

/-- Only the state itself has its name, so a list without the name is one without the state. -/
theorem entries_eraseState (coherent : d.Coherent) (live : d.find? h = some q)
    {handles : List StateId} (listed : ∀ g ∈ handles, d.contains g = true)
    (entry : StateId → String → α) (name : α → String) (named : ∀ g n, name (entry g n) = n) :
    (handles.filter (· ≠ h)).map (fun g => entry g ((d.eraseState h q).nameOf g)) =
      (handles.map fun g => entry g (d.nameOf g)).filter (name · ≠ q.name) := by
  induction handles with
  | nil => rfl
  | cons g handles ih =>
    obtain ⟨first, rest⟩ := List.forall_mem_cons.mp listed
    by_cases own : g = h
    · subst g
      simpa [named, nameOf_eq live] using ih rest
    · have other := coherent.nameOf_ne live first own
      have same := (rewritten_eraseState live).nameOf_of_ne own
      simpa [own, named, other, same] using ih rest

theorem summary_eraseState (coherent : d.Coherent) (live : d.find? h = some q) :
    (d.eraseState h q).summary = d.summary.follow (Event.removedState q.name h).printed := by
  have erased := coherent.eraseState live
  rw [erased.summary_eq, coherent.summary_eq]
  refine (Summary.mk.injEq ..).mpr ⟨?_, ?_, ?_⟩
  · rw [state_ids_eraseState live]
    exact coherent.entries_eraseState live (fun g => mem_state_ids.mp)
      (fun g name => (g.index, name)) Prod.snd fun _ _ => rfl
  · cases initial : d.initial with
    | none => simp [Automaton.eraseState, initial]
    | some g =>
      by_cases own : g = h
      · subst g
        simp [Automaton.eraseState, initial, nameOf_eq live, Option.filter_some]
      · have other := coherent.nameOf_ne live (coherent.initial_live initial) own
        have same := (rewritten_eraseState live).nameOf_of_ne own
        have spared : (d.eraseState h q).initial = some g := by
          simp [Automaton.eraseState, initial, own]
        simp [spared, other, same, Option.filter_some]
  · have finals : (d.eraseState h q).finals = d.finals.filter (· ≠ h) := by
      rw [Automaton.eraseState, coherent.finals_nodup.erase_eq_filter]
      exact List.filter_congr fun g _ => by simp [bne, beq_eq_decide]
    rw [finals]
    exact coherent.entries_eraseState live (fun g => coherent.finals_live) (fun _ name => name) id
      fun _ _ => rfl

theorem nameOf_renameState (coherent : d.Coherent) (live : d.find? h = some q)
    (liveToo : d.contains g = true) (name : String) :
    (d.renameState h q name).nameOf g = d.summary.relabel h.index name (d.nameOf g) := by
  have rewritten := rewritten_renameState live name
  rw [Summary.relabel, coherent.nameAt?_summary (contains_iff.mpr ⟨q, live⟩), nameOf_eq live]
  by_cases own : g = h
  · subst g
    rw [rewritten.nameOf_self, if_pos (congrArg some (nameOf_eq live).symm)]
  · have other := coherent.nameOf_ne live liveToo own
    rw [rewritten.nameOf_of_ne own, if_neg fun same => other (Option.some.inj same).symm]

theorem summary_renameState (coherent : d.Coherent) (live : d.find? h = some q) (named : name ≠ "")
    (free : ∀ holder, d.names.find? name = some holder → holder = h) :
    (d.renameState h q name).summary = d.summary.rename h.index name := by
  have renamed := coherent.renameState live named free
  have relabelled : ∀ g, d.contains g = true → (d.renameState h q name).nameOf g =
      d.summary.relabel h.index name (d.nameOf g) :=
    fun g liveToo => coherent.nameOf_renameState live liveToo name
  have states := congrArg Summary.states coherent.summary_eq
  have initial : d.summary.initial = d.initial.map d.nameOf := coherent.initialName?_eq
  have finals : d.summary.finals = d.finals.map d.nameOf := coherent.finalNames_eq
  rw [renamed.summary_eq, Summary.rename, Summary.mk.injEq, states, initial, finals,
    (rewritten_renameState live name).state_ids live, Option.map_map]
  refine ⟨Eq.trans ?_ List.map_map.symm, ?_, Eq.trans ?_ List.map_map.symm⟩
  · exact List.map_congr_left fun g listed =>
      congrArg (Prod.mk g.index) (relabelled g (mem_state_ids.mp listed))
  · exact Option.map_congr fun g held => relabelled g (coherent.initial_live held)
  · exact List.map_congr_left fun g member => relabelled g (coherent.finals_live member)

theorem summary_redirectState (coherent : d.Coherent) (live : d.find? h = some q) (s : Symbol)
    (target : Option StateId) : (d.redirectState h q s target).summary = d.summary := by
  have redirected := coherent.redirectState live s target
  have rewritten := coherent.rewritten_redirectState live s target
  have same := coherent.nameOf_redirectState live s target
  rw [redirected.summary_eq, coherent.summary_eq, same, rewritten.state_ids live]
  rfl

theorem summary_withInitial (coherent : d.Coherent) (live : d.contains h = true) :
    (d.withRoles h true false).summary = { d.summary with initial := some (d.nameOf h) } := by
  rw [(coherent.withRoles live true false).summary_eq, coherent.summary_eq, d.state_ids_withRoles]
  rfl

theorem summary_withFinal (coherent : d.Coherent) (live : d.contains h = true)
    (lacks : d.isFinal h = false) : (d.withRoles h false true).summary =
      { d.summary with finals := d.summary.finals ++ [d.nameOf h] } := by
  have finals : (d.withRoles h false true).finals = d.finals ++ [h] := by
    simp [Automaton.withRoles, lacks]
  rw [(coherent.withRoles live false true).summary_eq, coherent.summary_eq, d.state_ids_withRoles,
    finals, List.map_append]
  rfl

/-- The roles that a state takes are those of which the log tells. -/
theorem summary_withRoles (coherent : d.Coherent) (live : d.contains h = true)
    (lacks : d.isFinal h = false) (isInitial isFinal : Bool) :
    d.summary.through ((((if isInitial then d.handover (d.nameOf h) else []) ++
      if isFinal then [Event.becameFinal (d.nameOf h)] else []).map Event.printed).map .logged) =
        (d.withRoles h isInitial isFinal).summary := by
  have initial := (d.through_handover (d.nameOf h)).trans (coherent.summary_withInitial live).symm
  rw [List.map_append, List.map_append, Summary.through_append]
  cases isInitial with
  | false =>
    cases isFinal with
    | false => rfl
    | true => exact (coherent.summary_withFinal live lacks).symm
  | true =>
    rw [if_pos rfl, initial]
    cases isFinal with
    | false => rfl
    | true =>
      have final := (coherent.withRoles live true false).summary_withFinal live lacks
      rw [withRoles_initial_final] at final
      exact final.symm

end Coherent

/-- The lines that an edit adds to the log change what it tells into what is so after the edit. -/
theorem Edited.summary_eq (edited : d.Edited next e d' reply) (coherent : d.Coherent)
    (room : d.arena.size ≤ next) :
    d.summary.through (e.lines ⟨d.news next e, .ok reply⟩) = d'.summary := by
  have whole := edited
  cases edited with
  | @add draft named free onA onB supplied =>
    have inserted := coherent.insertState (h := ⟨d.tag, next⟩) rfl room named free
    have rewritten := rewritten_insertState (h := ⟨d.tag, next⟩) rfl room draft
    have live := (rewritten.contains_of_some _).mpr (.inl rfl)
    obtain ⟨_, lacks⟩ := coherent.roles_insertState room draft
    have roles := inserted.summary_withRoles live lacks draft.isInitial draft.isFinal
    rw [rewritten.nameOf_self, coherent.summary_insertState room named free, handover,
      coherent.initialName?_insertState room named free] at roles
    simp only [Edit.lines, Edit.note, List.append_nil]
    exact roles
  | @remove h q live =>
    have logged : d.news next (.remove h) = [.removedState q.name h] := by simp [news, live]
    rw [Edit.lines, logged]
    exact (coherent.summary_eraseState live).symm
  | @removeUnknown h dead =>
    have logged : d.news next (.remove h) = [.unknownState h] := by simp [news, dead]
    rw [Edit.lines, logged]
    rfl
  | rename live named free => exact (coherent.summary_renameState live named free).symm
  | connect live | disconnect live => exact (coherent.summary_redirectState live _ _).symm
  | @setInitial h live =>
    simp only [Edit.lines, Edit.note, List.append_nil, news]
    cases holds : d.isInitial h with
    | true => exact congrArg summary (whole.eq_of_idle (.setInitial live holds)).symm
    | false => exact (d.through_handover _).trans (coherent.summary_withInitial live).symm
  | @setFinal h live =>
    simp only [Edit.lines, Edit.note, List.append_nil, news]
    cases holds : d.isFinal h with
    | true => exact congrArg summary (whole.eq_of_idle (.setFinal live holds)).symm
    | false => exact (coherent.summary_withFinal live holds).symm

end Automaton
end BinaryAutomata
