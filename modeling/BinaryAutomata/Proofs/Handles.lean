import BinaryAutomata.Proofs.Past
import BinaryAutomata.Proofs.Views

/-! Which handles are live, told from what was done alone. An automaton holds the states that its
history has added and not removed, in the order of the adds, and a handle that has gone is gone for
good. Clones draw indices from one supply, so no add meets a slot that is in use. -/
namespace BinaryAutomata

/-- An add in the history returned `h`, and no remove since has taken it away. -/
def Kept (history : List Deed) (h : StateId) : Prop :=
  ∃ later draft earlier, history = later ++ ⟨.add draft, .issued h⟩ :: earlier ∧
    ⟨.remove h, .outcome .applied⟩ ∉ later

def Reply.issued? : Reply → Option StateId
  | .issued h => some h
  | _ => none

/-- The handles that the adds of a history returned, in the order of the adds. -/
def issuedBy (history : List Deed) : List StateId :=
  history.reverse.filterMap fun deed => deed.reply.issued?

/-- The entry is an add on the automaton `number` that returned `h`. -/
def Entry.Issues (entry : Entry) (number : Nat) (h : StateId) : Prop :=
  ∃ draft, entry.op = .edit number (.add draft) ∧ entry.report.result = .ok (.issued h)

theorem kept_iff_since : Kept history h ↔ Since history
    (fun deed => ∃ draft, deed = ⟨.add draft, .issued h⟩) (· = ⟨.remove h, .outcome .applied⟩) := by
  constructor
  · rintro ⟨later, draft, earlier, rfl, spared⟩
    exact ⟨later, _, earlier, rfl, ⟨draft, rfl⟩, fun other member same => spared (same ▸ member)⟩
  · rintro ⟨later, _, earlier, rfl, ⟨draft, rfl⟩, spared⟩
    exact ⟨later, draft, earlier, rfl, fun member => spared _ member rfl⟩

theorem kept_cons : Kept (deed :: history) h ↔
    (∃ draft, deed = ⟨.add draft, .issued h⟩) ∨
      (Kept history h ∧ deed ≠ ⟨.remove h, .outcome .applied⟩) := by
  rw [kept_iff_since, since_cons, kept_iff_since]

theorem Kept.append (kept : Kept earlier h) (spared : ⟨.remove h, .outcome .applied⟩ ∉ later) :
    Kept (later ++ earlier) h := by
  rw [kept_iff_since] at kept ⊢
  exact kept.append fun deed member same => spared (same ▸ member)

theorem issuedBy_cons (deed : Deed) (history : List Deed) :
    issuedBy (deed :: history) = issuedBy history ++ deed.reply.issued?.toList := by
  cases issued : deed.reply.issued? <;>
    simp [issuedBy, List.filterMap_append, issued]

theorem mem_issuedBy_of_kept (kept : Kept history h) : h ∈ issuedBy history := by
  obtain ⟨later, draft, earlier, rfl, _⟩ := kept
  simp [issuedBy, Reply.issued?]

namespace Automaton

variable {d : Automaton}

/-- The slot of `h`, beyond the last one, has been filled, and the other slots are as they were. -/
structure Filled (d : Automaton) (h : StateId) (draft : Draft) (d' : Automaton) : Prop where
  beyond : d.arena.size ≤ h.index
  slots (i : Nat) : d'.arena.get? i =
    if i = h.index then some ⟨draft.name, draft.onA, draft.onB⟩ else d.arena.get? i

theorem Edited.filled (edited : Edited d next e d' (.issued h)) (room : d.arena.size ≤ next) :
    h.index = next ∧ ∃ draft, e = .add draft ∧ d.Filled h draft d' := by
  cases edited with
  | add => exact ⟨rfl, _, rfl, room, fun i => Arena.get?_place_of_room room i _⟩

end Automaton

namespace Lineage

theorem issued_bounds (lineage : Lineage d history next) :
    (issuedBy history).Pairwise (fun g h => g.index < h.index) ∧
      ∀ h ∈ issuedBy history, h.index < next := by
  induction lineage with
  | empty => simp [issuedBy]
  | waited before passed ih =>
    refine ⟨ih.1, ?_⟩
    intro h member
    have bound := ih.2 h member
    omega
  | @edited d history next e d' reply before edited ih =>
    rw [issuedBy_cons]
    cases issued : reply.issued? with
    | none =>
      simp only [Option.toList_none, List.append_nil]
      refine ⟨ih.1, ?_⟩
      intro h member
      have bound := ih.2 h member
      have passed := edited.le_supplyAfter
      omega
    | some h =>
      cases reply with
      | issued g =>
        cases issued
        obtain ⟨rfl, _⟩ := edited.filled before.sound.2
        simp only [Option.toList_some, List.pairwise_append, List.pairwise_singleton,
          List.mem_append, List.mem_singleton, Reply.supplyAfter]
        refine ⟨⟨ih.1, trivial, ?_⟩, ?_⟩
        · rintro g member _ rfl
          exact ih.2 g member
        · rintro g (member | rfl)
          · have bound := ih.2 g member
            omega
          · omega
      | _ => contradiction

theorem contains_iff_kept (lineage : Lineage d history next) (h : StateId) :
    d.contains h = true ↔ Kept history h := by
  induction lineage with
  | empty => simp [Automaton.contains, Kept]
  | waited before passed ih => exact ih
  | @edited d history next e d' reply before edited ih =>
    have room := before.sound.2
    rw [edited.contains_iff before.sound.1 room, kept_cons, ih]
    apply or_congr
    · constructor
      · rintro rfl
        obtain ⟨_, draft, rfl, _⟩ := edited.filled room
        exact ⟨draft, rfl⟩
      · rintro ⟨draft, same⟩
        cases same
        rfl
    · simp only [ne_eq, Deed.mk.injEq]

theorem issued_of_removed (lineage : Lineage d history next)
    (removed : ⟨.remove h, .outcome .applied⟩ ∈ history) : h ∈ issuedBy history := by
  obtain ⟨later, earlier, rfl⟩ := List.append_of_mem removed
  obtain ⟨before, supply, after, origin, edited⟩ := lineage.performed
  cases edited with
  | remove live =>
    have kept := (origin.contains_iff_kept h).mp (Automaton.contains_iff.mpr ⟨_, live⟩)
    simpa [issuedBy, Reply.issued?] using Or.inl (mem_issuedBy_of_kept kept)

/-- A handle that was removed is not issued again. -/
theorem absent_of_removed (lineage : Lineage d history next)
    (removed : ⟨.remove h, .outcome .applied⟩ ∈ history) : d.contains h = false := by
  induction lineage with
  | empty => contradiction
  | waited before passed ih => exact ih removed
  | @edited d history next e d' reply before edited ih =>
    obtain ⟨coherent, room⟩ := before.sound
    rw [Bool.eq_false_iff, ne_eq, edited.contains_iff coherent room]
    rintro (rfl | ⟨live, spared⟩)
    · obtain same | earlier := List.mem_cons.mp removed
      · cases same
      · have taken := (edited.filled room).1
        have bound := before.issued_bounds.2 h (before.issued_of_removed earlier)
        omega
    · obtain same | earlier := List.mem_cons.mp removed
      · cases same
        exact spared ⟨rfl, rfl⟩
      · simp [ih earlier] at live

/-- The live states stand in the order in which they were added. -/
theorem state_ids (lineage : Lineage d history next) :
    d.states.map (·.id) = (issuedBy history).filter fun h => d.contains h := by
  have ascending := lineage.issued_bounds.1.filter fun h => d.contains h
  refine Automaton.eq_of_listed d.pairwise_state_ids ascending fun h => ?_
  rw [Automaton.mem_state_ids, List.mem_filter]
  constructor
  · intro live
    exact ⟨mem_issuedBy_of_kept ((lineage.contains_iff_kept h).mp live), live⟩
  · exact And.right

end Lineage

namespace Session

variable {session next final : Session} {record later : List Entry}

theorem Run.trans (run : Run session record next) (longer : Run next later final) :
    Run session (later ++ record) final := by
  induction longer with
  | refl => exact run
  | perform _ performed ih => exact ih.perform performed

/-- Members stay, and only an edit of its own changes one. -/
theorem Performed.keeps (performed : Performed session op next result)
    (held : session.members[number]? = some member) :
    next.members[number]? = some member ∨ ∃ e d reply, op = .edit number e ∧ result = .ok reply ∧
      member.automaton.Edited (session.supply member.family) e d reply ∧
      next.members[number]? = some { member with automaton := d } := by
  have inside : number < session.members.size := (Array.getElem?_eq_some_iff.mp held).1
  cases performed with
  | found => exact .inl (by simpa [Session.found, Array.getElem?_push, Nat.ne_of_lt inside] using held)
  | clone _ => exact .inl (by simpa [Array.getElem?_push, Nat.ne_of_lt inside] using held)
  | refused _ => exact .inl held
  | @edited target original e d reply copied edited =>
    rw [member_commit copied]
    by_cases same : number = target
    · subst number
      cases Option.some.inj (copied.symm.trans held)
      exact .inr ⟨e, d, reply, rfl, rfl, edited, if_pos rfl⟩
    · exact .inl ((if_neg same).trans held)

theorem Performed.family? (performed : Performed session op next result)
    (held : session.family? number = some family) : next.family? number = some family := by
  obtain ⟨member, found, rfl⟩ := Option.map_eq_some_iff.mp held
  obtain kept | ⟨e, d, reply, _, _, _, kept⟩ := performed.keeps found <;> simp [Session.family?, kept]

theorem Run.supply_le (run : Run .empty record session)
    (performed : Performed session op next result) (family : Nat) :
    session.supply family ≤ next.supply family := by
  cases performed with
  | found => exact Nat.le_of_eq (supply_found ..).symm
  | clone _ | refused _ => exact Nat.le_refl _
  | edited held edited =>
    rw [supply_commit (run.lineage held).1]
    split
    · rename_i own
      exact own ▸ edited.le_supplyAfter
    · exact Nat.le_refl _

/-- The supply of a family is beyond every index that a member of it was ever issued. -/
theorem Run.issued_lt (run : Run .empty record session) (logged : entry ∈ record)
    (issues : entry.Issues number h) :
    ∃ family, session.family? number = some family ∧ h.index < session.supply family := by
  induction run with
  | refl => contradiction
  | @perform record session op next report before performed ih =>
    have step := performed_of_perform? performed
    obtain rfl | earlier := List.mem_cons.mp logged
    · obtain ⟨draft, rfl, issued⟩ := issues
      have stepped : Performed _ _ next (.ok (.issued h)) := issued ▸ step
      cases stepped with
      | edited held edited =>
        refine ⟨_, step.family? (Option.map_eq_some_iff.mpr ⟨_, held, rfl⟩), ?_⟩
        rw [supply_commit (before.lineage held).1, if_pos rfl]
        exact Nat.lt_succ_self _
    · obtain ⟨family, held, less⟩ := ih earlier
      exact ⟨family, step.family? held, Nat.lt_of_lt_of_le less (before.supply_le step _)⟩

/-- A handle that the family has issued and the automaton does not hold stays unheld. -/
theorem Run.stays_absent (run : Run .empty record session)
    (known : session.family? number = some family) (used : h.index < session.supply family)
    (absent : ∀ d, session.automaton? number = some d → d.contains h = false)
    (longer : Run session later final) :
    final.family? number = some family ∧ h.index < final.supply family ∧
      ∀ d, final.automaton? number = some d → d.contains h = false := by
  induction longer with
  | refl => exact ⟨known, used, absent⟩
  | @perform later middle op final report before performed ih =>
    obtain ⟨known, used, absent⟩ := ih
    have whole := run.trans before
    have step := performed_of_perform? performed
    refine ⟨step.family? known, Nat.lt_of_lt_of_le used (whole.supply_le step family), ?_⟩
    obtain ⟨member, found, rfl⟩ := Option.map_eq_some_iff.mp known
    have gone := absent member.automaton (by simp [automaton?, found])
    obtain kept | ⟨e, d', reply, _, _, edited, kept⟩ := step.keeps found
    · simpa [automaton?, kept] using gone
    · obtain ⟨coherent, room⟩ := (whole.lineage found).2.sound
      have gone' : ¬ d'.contains h = true := by
        rw [edited.contains_iff coherent room]
        rintro (rfl | ⟨live, _⟩)
        · have taken := (edited.filled room).1
          omega
        · exact absurd live (by simp [gone])
      simpa [automaton?, kept] using gone'

/-- What an add finds: an index beyond all that its family was issued and a slot beyond all that
are in use, so that it fills this slot alone and leaves the other automata as they were. -/
theorem Run.add_fills (run : Run .empty record session) (held : session.automaton? number = some d)
    (performed : session.perform? (.edit number (.add draft)) = some (next, report))
    (issued : report.result = .ok (.issued h)) :
    (∀ entry ∈ record, ∀ other g, entry.Issues other g →
      session.family? other = session.family? number → g.index < h.index) ∧
    (∃ d', next.automaton? number = some d' ∧ d.Filled h draft d') ∧
    ∀ other, other ≠ number → next.automaton? other = session.automaton? other := by
  obtain ⟨member, found, rfl⟩ := Option.map_eq_some_iff.mp held
  have step : Performed _ _ next (.ok (.issued h)) := issued ▸ performed_of_perform? performed
  have room := (run.lineage found).2.sound.2
  cases step with
  | @edited _ original _ d' _ copied edited =>
    cases Option.some.inj (copied.symm.trans found)
    obtain ⟨taken, _, same, filled⟩ := edited.filled room
    cases same
    refine ⟨?_, ⟨d', ?_, filled⟩, ?_⟩
    · intro entry logged other g issues kin
      obtain ⟨family, known, less⟩ := run.issued_lt logged issues
      have same : member.family = family := by
        rw [kin] at known
        simpa [family?, found] using known
      rw [taken, same]
      exact less
    · simp [automaton?, member_commit found]
    · intro other foreign
      simp [automaton?, member_commit found, foreign]

/-- Over any run, with clones taken at any moment: a handle is live in an automaton if and only if
its history has added and not removed it, the states stand in the order of their adds, every add
meets a free slot beyond those in use, and a handle that is gone is gone for good. -/
theorem handles_follow_history (run : Run .empty record session)
    (held : session.automaton? number = some d) :
    (∀ h, d.contains h = true ↔ Kept (history record number) h) ∧
    d.states.map (·.id) = (issuedBy (history record number)).filter (fun h => d.contains h) ∧
    (∀ draft next report h, session.perform? (.edit number (.add draft)) = some (next, report) →
      report.result = .ok (.issued h) →
      (∀ entry ∈ record, ∀ other g, entry.Issues other g →
        session.family? other = session.family? number → g.index < h.index) ∧
      (∃ d', next.automaton? number = some d' ∧ d.Filled h draft d') ∧
      ∀ other, other ≠ number → next.automaton? other = session.automaton? other) ∧
    (∀ entry ∈ record, ∀ other h, entry.Issues other h →
      session.family? other = session.family? number → d.contains h = false →
      ∀ later final d', Run session later final → final.automaton? number = some d' →
        d'.contains h = false) := by
  obtain ⟨member, found, rfl⟩ := Option.map_eq_some_iff.mp held
  have lineage := (run.lineage found).2
  refine ⟨lineage.contains_iff_kept, lineage.state_ids, ?_, ?_⟩
  · intro draft next report h performed issued
    exact run.add_fills held performed issued
  · intro entry logged other h issues kin gone later final d' longer held'
    obtain ⟨family, known, used⟩ := run.issued_lt logged issues
    have absent : ∀ d, session.automaton? number = some d → d.contains h = false := by
      intro d same
      exact Option.some.inj (same.symm.trans held) ▸ gone
    exact (run.stays_absent (kin ▸ known) used absent longer).2.2 d' held'

/-- The handle is removed from the original after the clone was taken. -/
theorem removed_from_original : ∃ record session d, Run .empty record session ∧
    session.automaton? 0 = some d ∧ d.contains ⟨0, 0⟩ = false ∧
    (d.contains ⟨0, 0⟩ = true ↔ Kept (history record 0) ⟨0, 0⟩) ∧
    (d.states.map (·.id) = (issuedBy (history record 0)).filter (fun h => d.contains h)) ∧
    ∀ later final d', Run session later final → final.automaton? 0 = some d' →
      d'.contains ⟨0, 0⟩ = false := by
  have run : Run .empty
      [⟨.edit 0 (.remove ⟨0, 0⟩), ⟨[.removedState "p" ⟨0, 0⟩], .ok (.outcome .applied)⟩⟩,
        ⟨.clone 0, ⟨[], .ok (.created 1)⟩⟩,
        ⟨.edit 0 (.add ⟨"p", none, none, false, false⟩),
          ⟨[.addedState "p" ⟨0, 0⟩], .ok (.issued ⟨0, 0⟩)⟩⟩,
        ⟨.found .standard, ⟨[], .ok (.created 0)⟩⟩]
      ⟨#[⟨0, ⟨0, .standard, ⟨#[none]⟩, ⟨[]⟩, none, []⟩⟩,
        ⟨0, ⟨0, .standard, ⟨#[some ⟨"p", none, none⟩]⟩, ⟨[("p", ⟨0, 0⟩)]⟩, none, []⟩⟩], #[1]⟩ :=
    .perform (.perform (.perform (.perform (.refl .empty) rfl) rfl) rfl) rfl
  obtain ⟨live, listed, _, gone⟩ :=
    handles_follow_history run (show automaton? _ 0 = some _ from rfl)
  exact ⟨_, _, _, run, rfl, rfl, live _, listed,
    gone _ (.tail _ (.tail _ (.head _))) 0 ⟨0, 0⟩ ⟨_, rfl, rfl⟩ rfl rfl⟩

end Session
end BinaryAutomata
