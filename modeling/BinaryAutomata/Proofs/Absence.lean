import BinaryAutomata.Proofs.Handles
import BinaryAutomata.Proofs.Refusal
import BinaryAutomata.Proofs.Search

/-! Handles that are not live. No question about such a handle finds anything, no answer shows it, and
no edit acts on it. The handles of other families are among them as long as tags are not used twice. -/
namespace BinaryAutomata

namespace Session

variable {session next : Session} {record : List Entry}

theorem Run.families_le (run : Run .empty record session) :
    session.supplies.size ≤ session.members.size := by
  induction run with
  | refl => exact Nat.le_refl _
  | @perform record session op next report before performed ih =>
    obtain ⟨events, result⟩ := report
    cases performed_of_perform? performed with
    | found => simpa [found] using ih
    | clone _ => simpa using Nat.le_succ_of_le ih
    | refused _ => exact ih
    | edited _ _ =>
      rw [size_supplies_commit]
      simpa [commit] using ih

/-- All automata of a family have the tag of its number. -/
theorem Run.tag_eq {number : Nat} {member : Member} (run : Run .empty record session)
    (held : session.members[number]? = some member) :
    member.automaton.tag = UInt32.ofNat member.family := by
  induction run generalizing number member with
  | refl => simp [Session.empty] at held
  | @perform record session op next report before performed ih =>
    obtain ⟨events, result⟩ := report
    cases performed_of_perform? performed with
    | found =>
      simp only [found, Array.getElem?_push] at held
      split at held
      · cases held
        rfl
      · exact ih held
    | clone copied =>
      simp only [Array.getElem?_push] at held
      split at held
      · exact Option.some.inj held ▸ ih copied
      · exact ih held
    | refused _ => exact ih held
    | @edited target original e d reply found edited =>
      rw [member_commit found] at held
      split at held
      · cases held
        exact edited.tag_eq.trans (ih found)
      · exact ih held

/-- Automata of one family have one tag, and those of two have two while tags are not used twice. -/
theorem Run.tag_eq_iff {number number' : Nat} {member other : Member}
    (run : Run .empty record session) (few : session.supplies.size ≤ UInt32.size)
    (held : session.members[number]? = some member) (heldToo : session.members[number']? = some other) :
    member.automaton.tag = other.automaton.tag ↔ member.family = other.family := by
  have small : member.family < UInt32.size := Nat.lt_of_lt_of_le (run.lineage held).1 few
  have smallToo : other.family < UInt32.size := Nat.lt_of_lt_of_le (run.lineage heldToo).1 few
  rw [run.tag_eq held, run.tag_eq heldToo]
  constructor
  · intro same
    have same := congrArg UInt32.toNat same
    rwa [UInt32.toNat_ofNat_of_lt' small, UInt32.toNat_ofNat_of_lt' smallToo] at same
  · exact congrArg UInt32.ofNat

/-- A handle that an add returned carries the tag of the family of the automaton. -/
theorem Run.issued_owner (run : Run .empty record session) (logged : entry ∈ record)
    (issues : entry.Issues number h) :
    ∃ family, session.family? number = some family ∧ h.owner = UInt32.ofNat family := by
  induction run with
  | refl => contradiction
  | @perform record session op next report before performed ih =>
    have step := performed_of_perform? performed
    obtain rfl | earlier := List.mem_cons.mp logged
    · obtain ⟨draft, rfl, issued⟩ := issues
      have stepped : Performed _ _ next (.ok (.issued h)) := issued ▸ step
      cases stepped with
      | edited held edited =>
        refine ⟨_, step.family? (Option.map_eq_some_iff.mpr ⟨_, held, rfl⟩), ?_⟩
        cases edited
        exact before.tag_eq held
    · obtain ⟨family, held, same⟩ := ih earlier
      exact ⟨family, step.family? held, same⟩

/-- While tags are not used twice, the handles of another family are told apart by their owner. -/
theorem Run.foreign_owner {member : Member} (run : Run .empty record session)
    (few : session.supplies.size ≤ UInt32.size) (held : session.members[number]? = some member)
    (logged : entry ∈ record) (issues : entry.Issues other h)
    (foreign : session.family? other ≠ session.family? number) : h.owner ≠ member.automaton.tag := by
  obtain ⟨family, known, owner⟩ := run.issued_owner logged issues
  obtain ⟨memberToo, heldToo, rfl⟩ := Option.map_eq_some_iff.mp known
  rw [owner, ← run.tag_eq heldToo]
  intro same
  have kin := (run.tag_eq_iff few heldToo held).mp same
  simp [family?, held, heldToo, kin] at foreign

end Session

namespace Automaton

/-- The handle shows nowhere in the automaton and nothing can be done with it. -/
structure Inert (d : Automaton) (h : StateId) : Prop where
  notInitial : d.isInitial h = false
  notFinal : d.isFinal h = false
  unseen : d.state? h = none
  edgeless (s : Symbol) : d.transition? h s = none
  unreached : d.reachable.contains h = false
  unnamed (name : String) : d.stateNamed? name ≠ some h
  unlisted : h ∉ d.states.map (·.id)
  unlistedFinal : h ∉ d.finalStates.map (·.id)
  unlistedInitial : d.initialState?.map (·.id) ≠ some h
  holeless (s : Symbol) : (h, s) ∉ d.holes
  sourceless (s : Symbol) (target : StateId) : (h, s, target) ∉ d.transitions
  unvisited {word : List Symbol} {e : Evaluation} :
    (d.evaluateSymbols word).result = .ok e → h ∉ e.trace.states
  unvisitedByInput {input : String} {e : Evaluation} :
    (d.evaluate input).result = .ok e → h ∉ e.trace.states
  remove : (d.remove h).result = .ok (d, .unchanged .stateNotFound)
  rename (name : String) : (d.rename h name).result = .error (.stateNotFound h)
  disconnect (s : Symbol) : (d.disconnect h s).result = .error (.stateNotFound h)
  setInitial : (d.setInitial h).result = .error (.stateNotFound h)
  setFinal : (d.setFinal h).result = .error (.stateNotFound h)
  connectTo (source : StateId) (s : Symbol) :
    (d.connect source s h).result = .error (.stateNotFound h)
  connectFrom (s : Symbol) {target : StateId} : d.contains target = true →
    (d.connect h s target).result = .error (.stateNotFound h)
  add (next : Nat) {draft : Draft} : d.NameFree none draft.name →
    draft.onA = some h ∨ (∀ g ∈ draft.onA, d.contains g = true) ∧ draft.onB = some h →
    (d.add next draft).result = .error (.stateNotFound h)

theorem Coherent.inert {d : Automaton} (coherent : d.Coherent) (dead : d.contains h = false) :
    d.Inert h := by
  have unfound : d.find? h = none := by simpa [contains] using dead
  have unlive : ¬ d.contains h = true := by simp [dead]
  have unvisited : ∀ {word e}, (d.evaluateSymbols word).result = .ok e → h ∉ e.trace.states := by
    intro word e ok visits
    obtain ⟨visited, last, ⟨_, _, path⟩, rfl⟩ := coherent.evaluateSymbols_eq_ok_iff.mp ok
    rw [states_evaluation] at visits
    exact unlive (path.visited_live h visits)
  exact {
    notInitial := Bool.eq_false_iff.mpr fun holds => unlive (coherent.initial_live (isInitial_iff.mp holds))
    notFinal := Bool.eq_false_iff.mpr fun holds => unlive (coherent.finals_live (isFinal_iff.mp holds))
    unseen := by simp [state?, unfound]
    edgeless := fun s => by simp [transition?, unfound]
    unreached := Bool.eq_false_iff.mpr fun marked => unlive (coherent.mem_reachable_iff.mp marked).live
    unnamed := by
      intro name named
      obtain ⟨q, live, _⟩ := coherent.names_iff.mp named
      simp [unfound] at live
    unlisted := fun listed => unlive (mem_state_ids.mp listed)
    unlistedFinal := by
      rw [coherent.finalState_ids]
      exact fun final => unlive (coherent.finals_live final)
    unlistedInitial := by
      rw [coherent.initialState?_id]
      exact fun initial => unlive (coherent.initial_live initial)
    holeless := fun s listed => unlive (mem_holes.mp listed).1
    sourceless := by
      intro s target listed
      have edge := mem_transitions.mp listed
      simp [transition?, unfound] at edge
    unvisited
    unvisitedByInput := by
      intro input e ok
      obtain ⟨word, _, ok⟩ := Report.bind_eq_ok_iff.mp ok
      exact unvisited ok
    remove := remove_eq_ok_iff.mpr (.inl ⟨unfound, rfl, rfl⟩)
    rename := fun name => (coherent.rename_eq_error_iff 0).mpr (.renameDead dead)
    disconnect := fun s => (disconnect_eq_error_iff 0).mpr (.disconnect dead)
    setInitial := (setInitial_eq_error_iff 0).mpr (.setInitial dead)
    setFinal := (setFinal_eq_error_iff 0).mpr (.setFinal dead)
    connectTo := fun source s => (connect_eq_error_iff 0).mpr (.connectTarget dead)
    connectFrom := fun s _ live => (connect_eq_error_iff 0).mpr (.connectSource live dead)
    add := by
      intro next draft free first
      apply coherent.add_eq_error_iff.mpr
      obtain onA | ⟨liveA, onB⟩ := first
      · exact .addOnA free onA dead
      · exact .addOnB free liveA onB dead }

end Automaton

namespace Session

/-- While tags are fresh, no automaton has a live state for a handle that another family issued,
whatever its index, nor for one that a clone alone has issued or that was removed. And each handle
without a live state is inert. -/
theorem absent_handles_are_inert {session : Session} (run : Run .empty record session)
    (few : session.members.size < UInt32.size) (held : session.automaton? number = some d) :
    (∀ entry ∈ record, ∀ other h, entry.Issues other h →
      session.family? other ≠ session.family? number → d.contains h = false) ∧
    (∀ h, h ∉ issuedBy (history record number) → d.contains h = false) ∧
    (∀ h, ⟨.remove h, .outcome .applied⟩ ∈ history record number → d.contains h = false) ∧
    ∀ h, d.contains h = false → d.Inert h := by
  obtain ⟨_, lineage⟩ := run.comes_about held
  refine ⟨?_, ?_, ?_, ?_⟩
  · intro entry logged other h issues foreign
    obtain ⟨member, found, rfl⟩ := Option.map_eq_some_iff.mp held
    have tags := Nat.le_of_lt (Nat.lt_of_le_of_lt run.families_le few)
    have owner := run.foreign_owner tags found logged issues foreign
    simp [Automaton.contains, Automaton.find?, owner]
  · intro h unissued
    exact Bool.eq_false_iff.mpr fun live =>
      unissued (mem_issuedBy_of_kept ((lineage.contains_iff_kept h).mp live))
  · exact fun h => lineage.absent_of_removed
  · exact fun h => lineage.sound.1.inert

/-- Two families side by side. -/
def neighbours : Session where
  members := #[⟨0, 0, .standard, ⟨#[some ⟨"p", none, none⟩]⟩, ⟨[("p", ⟨0, 0⟩)]⟩, none, []⟩,
    ⟨1, 1, .standard, ⟨#[some ⟨"q", none, none⟩]⟩, ⟨[("q", ⟨1, 0⟩)]⟩, none, []⟩]
  supplies := #[1, 1]

/-- The same session later. A clone has added a state that its original lacks, and the original has
removed a state that the clone never had. -/
def apart : Session where
  members := #[⟨0, 0, .standard, ⟨#[some ⟨"p", none, none⟩, none, none]⟩, ⟨[("p", ⟨0, 0⟩)]⟩, none, []⟩,
    ⟨1, 1, .standard, ⟨#[some ⟨"q", none, none⟩]⟩, ⟨[("q", ⟨1, 0⟩)]⟩, none, []⟩,
    ⟨0, 0, .standard, ⟨#[some ⟨"p", none, none⟩, some ⟨"r", none, none⟩]⟩,
      ⟨[("r", ⟨0, 1⟩), ("p", ⟨0, 0⟩)]⟩, none, []⟩]
  supplies := #[3, 1]

/-- In the first of the automata: a foreign handle whose index is in use there, one that only the
clone was issued, and one that was removed. -/
theorem apart_inert : ∃ record d, Run .empty record apart ∧ apart.members.size < UInt32.size ∧
    apart.automaton? 0 = some d ∧ d.contains ⟨0, 0⟩ = true ∧
    d.Inert ⟨1, 0⟩ ∧ d.Inert ⟨0, 1⟩ ∧ d.Inert ⟨0, 2⟩ := by
  have first : Run .empty
      [⟨.edit 1 (.add ⟨"q", none, none, false, false⟩),
          ⟨[.addedState "q" ⟨1, 0⟩], .ok (.issued ⟨1, 0⟩)⟩⟩,
        ⟨.found .standard, ⟨[], .ok (.created 1)⟩⟩,
        ⟨.edit 0 (.add ⟨"p", none, none, false, false⟩),
          ⟨[.addedState "p" ⟨0, 0⟩], .ok (.issued ⟨0, 0⟩)⟩⟩,
        ⟨.found .standard, ⟨[], .ok (.created 0)⟩⟩] neighbours :=
    .perform (.perform (.perform (.perform (.refl .empty) rfl) rfl) rfl) rfl
  have later : Run neighbours
      [⟨.edit 0 (.remove ⟨0, 2⟩), ⟨[.removedState "s" ⟨0, 2⟩], .ok (.outcome .applied)⟩⟩,
        ⟨.edit 0 (.add ⟨"s", none, none, false, false⟩),
          ⟨[.addedState "s" ⟨0, 2⟩], .ok (.issued ⟨0, 2⟩)⟩⟩,
        ⟨.edit 2 (.add ⟨"r", none, none, false, false⟩),
          ⟨[.addedState "r" ⟨0, 1⟩], .ok (.issued ⟨0, 1⟩)⟩⟩,
        ⟨.clone 0, ⟨[], .ok (.created 2)⟩⟩] apart :=
    .perform (.perform (.perform (.perform (.refl neighbours) rfl) rfl) rfl) rfl
  have few : apart.members.size < UInt32.size := by decide
  have held : apart.automaton? 0 = some ⟨0, .standard, ⟨#[some ⟨"p", none, none⟩, none, none]⟩,
    ⟨[("p", ⟨0, 0⟩)]⟩, none, []⟩ := rfl
  obtain ⟨foreign, unissued, removed, inert⟩ := absent_handles_are_inert (first.trans later) few held
  refine ⟨_, _, first.trans later, few, held, rfl, ?_, ?_, ?_⟩
  · have issues : Entry.Issues ⟨.edit 1 (.add ⟨"q", none, none, false, false⟩),
        ⟨[.addedState "q" ⟨1, 0⟩], .ok (.issued ⟨1, 0⟩)⟩⟩ 1 ⟨1, 0⟩ := ⟨_, rfl, rfl⟩
    exact inert _ (foreign _ (by simp) 1 _ issues (by decide))
  · exact inert _ (unissued _ (by decide))
  · exact inert _ (removed _ (.head _))

end Session
end BinaryAutomata
