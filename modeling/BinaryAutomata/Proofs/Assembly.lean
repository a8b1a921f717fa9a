import BinaryAutomata.Proofs.EditLog
import BinaryAutomata.Proofs.Slots

/-! A state can be added at once, with its edges and roles, or bare, to be given these one by one. Both
ways give it the same handle and leave the same session, for a slot that has just been filled can still be
filled with what is to be there in the end, and a state that is new has no role yet. -/
namespace BinaryAutomata

namespace Draft

def redirect (draft : Draft) (s : Symbol) (target : Option StateId) : Draft :=
  match s with
  | .a => { draft with onA := target }
  | .b => { draft with onB := target }

theorem redirect_eq_self {draft : Draft} (unset : draft.on s = none) : draft.redirect s none = draft := by
  cases s with
  | a => exact congrArg (Draft.mk draft.name · draft.onB draft.isInitial draft.isFinal) unset.symm
  | b => exact congrArg (Draft.mk draft.name draft.onA · draft.isInitial draft.isFinal) unset.symm

/-- A state with the name alone. -/
def bare (draft : Draft) : Draft := ⟨draft.name, none, none, false, false⟩

/-- The edits that make the state of a draft bit by bit, and their replies if its handle is `h`. The
oldest comes first. -/
def deeds (draft : Draft) (h : StateId) : List Deed :=
  ⟨.add draft.bare, .issued h⟩ ::
    ((draft.onA.toList.map (⟨.connect h .a ·, .done⟩) ++
        draft.onB.toList.map (⟨.connect h .b ·, .done⟩)) ++
      ((if draft.isInitial then [⟨.setInitial h, .outcome .applied⟩] else []) ++
        if draft.isFinal then [⟨.setFinal h, .outcome .applied⟩] else []))

end Draft

namespace Automaton

/-- Edits that succeed one after the other, the oldest first, and the index that the family would issue
before and after them. -/
inductive EditedInTurn : Automaton → Nat → List Deed → Automaton → Nat → Prop where
  | nil : EditedInTurn d next [] d next
  | cons (edited : d.Edited next e mid reply)
      (rest : EditedInTurn mid (reply.supplyAfter next) deeds d' last) :
      EditedInTurn d next (⟨e, reply⟩ :: deeds) d' last

variable {d d' mid : Automaton} {draft : Draft} {h : StateId} {next last : Nat} {s : Symbol}

theorem EditedInTurn.append (edits : EditedInTurn d next deeds mid between)
    (more : EditedInTurn mid between deeds' d' last) :
    EditedInTurn d next (deeds ++ deeds') d' last := by
  induction edits with
  | nil => exact more
  | cons edited _ ih => exact .cons edited (ih more)

/-- An edge of a state that has just been inserted might as well have been in its draft. -/
theorem redirectState_insertState (d : Automaton) (h : StateId) (draft : Draft) (s : Symbol)
    (target : Option StateId) :
    (d.insertState h draft).redirectState h ⟨draft.name, draft.onA, draft.onB⟩ s target =
      d.insertState h (draft.redirect s target) := by
  cases s <;>
    simp only [redirectState, insertState, Arena.replace_place, State.redirect, Draft.redirect]

theorem edge_in_turn (own : h.owner = d.tag) (room : d.arena.size ≤ h.index)
    (unset : draft.on s = none) {edge : Option StateId}
    (ends : ∀ target ∈ edge, d.contains target = true) (next : Nat) :
    EditedInTurn (d.insertState h draft) next (edge.toList.map (⟨.connect h s ·, .done⟩))
      (d.insertState h (draft.redirect s edge)) next := by
  cases edge with
  | none =>
    rw [Draft.redirect_eq_self unset]
    exact .nil
  | some target =>
    have rewritten := rewritten_insertState own room draft
    have live := (rewritten.reads h).trans (if_pos rfl)
    have endsToo := (rewritten.contains_of_some target).mpr (.inr (ends target rfl))
    rw [← redirectState_insertState]
    exact .cons (.connect live endsToo) .nil

theorem initial_in_turn (live : d.contains h = true) (lacks : d.isInitial h = false)
    (isInitial : Bool) (next : Nat) :
    EditedInTurn d next (if isInitial then [⟨.setInitial h, .outcome .applied⟩] else [])
      (d.withRoles h isInitial false) next := by
  cases isInitial with
  | false => exact .nil
  | true =>
    have edited : d.Edited next (.setInitial h) _ _ := .setInitial live
    rw [lacks] at edited
    exact .cons edited .nil

theorem final_in_turn (live : d.contains h = true) (lacks : d.isFinal h = false) (isFinal : Bool)
    (next : Nat) :
    EditedInTurn d next (if isFinal then [⟨.setFinal h, .outcome .applied⟩] else [])
      (d.withRoles h false isFinal) next := by
  cases isFinal with
  | false => exact .nil
  | true =>
    have edited : d.Edited next (.setFinal h) _ _ := .setFinal live
    rw [lacks] at edited
    exact .cons edited .nil

theorem roles_in_turn (live : d.contains h = true) (noInitial : d.isInitial h = false)
    (noFinal : d.isFinal h = false) (isInitial isFinal : Bool) (next : Nat) :
    EditedInTurn d next ((if isInitial then [⟨.setInitial h, .outcome .applied⟩] else []) ++
      if isFinal then [⟨.setFinal h, .outcome .applied⟩] else [])
      (d.withRoles h isInitial isFinal) next :=
  (initial_in_turn live noInitial isInitial next).append
    (final_in_turn (d := d.withRoles h isInitial false) live noFinal isFinal next)

theorem Edited.assembled (edited : d.Edited next (.add draft) d' (.issued h)) (coherent : d.Coherent)
    (room : d.arena.size ≤ next) : EditedInTurn d next (draft.deeds h) d' (next + 1) := by
  cases edited with
  | add named free onA onB supplied =>
    have inserted := rewritten_insertState (h := ⟨d.tag, next⟩) rfl room draft
    have live := (inserted.contains_of_some _).mpr (.inl rfl)
    obtain ⟨noInitial, noFinal⟩ := coherent.roles_insertState room draft
    -- With both edges set the bare state is the one of the draft, for a slot holds no roles.
    have unsetA : draft.bare.on .a = none := rfl
    have unsetB : (draft.bare.redirect .a draft.onA).on .b = none := rfl
    have edges := (edge_in_turn (h := ⟨d.tag, next⟩) rfl room unsetA onA (next + 1)).append
      (edge_in_turn rfl room unsetB onB (next + 1))
    have roles := roles_in_turn live noInitial noFinal draft.isInitial draft.isFinal (next + 1)
    exact .cons (.add named free nofun nofun supplied) (edges.append roles)

end Automaton

namespace Session

variable {session : Session} {member : Member}

/-- The session with the member's automaton and the supply of its family as they are given. -/
def placed (session : Session) (number : Nat) (member : Member) (d : Automaton) (next : Nat) :
    Session where
  members := session.members.setIfInBounds number { member with automaton := d }
  supplies := session.supplies.setIfInBounds member.family next

theorem set_supply_self (known : family < session.supplies.size) :
    session.supplies.setIfInBounds family (session.supply family) = session.supplies :=
  Arena.setIfInBounds_eq_self (by simp [supply, known])

theorem commit_eq_placed (known : member.family < session.supplies.size) (number : Nat)
    (d : Automaton) (reply : Reply) : session.commit number member d reply =
      session.placed number member d (reply.supplyAfter (session.supply member.family)) := by
  cases reply with
  | issued h => rfl
  | _ => exact congrArg (Session.mk _) (set_supply_self known).symm

theorem placed_self (held : session.members[number]? = some member)
    (known : member.family < session.supplies.size) :
    session.placed number member member.automaton (session.supply member.family) = session :=
  congrArg₂ Session.mk (Arena.setIfInBounds_eq_self held) (set_supply_self known)

theorem placed_placed (session : Session) (number : Nat) (member : Member) (d d' : Automaton)
    (next last : Nat) :
    (session.placed number member d next).placed number { member with automaton := d } d' last =
      session.placed number member d' last := by
  simp only [placed, Array.setIfInBounds_setIfInBounds]

/-- Edits of one automaton carried out in turn leave what the last of them does. -/
theorem replay_of_editedInTurn (held : session.members[number]? = some member)
    (known : member.family < session.supplies.size)
    (edits : member.automaton.EditedInTurn (session.supply member.family) deeds d last)
    (record : List Entry) :
    ∃ later, session.replay record (deeds.map fun deed => .edit number deed.edit) =
        some (later ++ record, session.placed number member d last) ∧
      later.map (·.report.result) = deeds.reverse.map (.ok ·.reply) := by
  -- Each edit is carried out on the session that the one before has left, hence on another member.
  generalize origin : member.automaton = d₀, supplied : session.supply member.family = next at edits
  induction edits generalizing session member record with
  | nil =>
    subst origin supplied
    exact ⟨[], by rw [placed_self held known]; rfl, rfl⟩
  | @cons mid _ _ _ _ _ e reply edited rest ih =>
    subst origin supplied
    obtain ⟨report, performed, answer⟩ := perform?_of_edited held edited
    have heldAfter : (session.commit number member mid reply).members[number]? =
        some { member with automaton := mid } := by rw [member_commit held, if_pos rfl]
    have knownAfter : member.family < (session.commit number member mid reply).supplies.size := by
      rwa [size_supplies_commit]
    obtain ⟨later, replayed, answers⟩ := ih heldAfter knownAfter (⟨.edit number e, report⟩ :: record) rfl
      (by rw [supply_commit known, if_pos rfl])
    refine ⟨later ++ [⟨.edit number e, report⟩], ?_, by simp [answers, answer]⟩
    rw [commit_eq_placed known] at replayed performed
    rw [placed_placed] at replayed
    simp [replay, performed, replayed]

/-- An add that succeeds can be done bit by bit: with the name alone, then the edges, then the roles. Each
of these edits succeeds, those that give roles find something to do, and they issue the same handle and
leave the same session behind, supplies included. So the two roles that an add gives are never those of a
state that has them already. -/
theorem add_is_assembled (run : Run .empty record session) (held : session.automaton? number = some d)
    (performed : session.perform? (.edit number (.add draft)) = some (next, report))
    (issued : report.result = .ok (.issued h)) :
    (∃ later, session.replay [] ((draft.deeds h).map fun deed => .edit number deed.edit) =
        some (later, next) ∧
      later.map (·.report.result) = (draft.deeds h).reverse.map (.ok ·.reply)) ∧
    ((d.insertState h draft).makeInitial h).result =
      .ok ((d.insertState h draft).withRoles h true false, .applied) ∧
    (((d.insertState h draft).withRoles h draft.isInitial false).makeFinal h).result =
      .ok ((d.insertState h draft).withRoles h draft.isInitial true, .applied) := by
  obtain ⟨member, found, rfl⟩ := Option.map_eq_some_iff.mp held
  obtain ⟨known, lineage⟩ := run.lineage found
  obtain ⟨coherent, room⟩ := lineage.sound
  have step : Performed _ _ next (.ok (.issued h)) := issued ▸ performed_of_perform? performed
  cases step with
  | edited copied edited =>
    cases Option.some.inj (copied.symm.trans found)
    obtain ⟨later, replayed, answers⟩ :=
      replay_of_editedInTurn found known (edited.assembled coherent room) []
    cases edited with
    | add named free _ _ _ =>
      have inserted := coherent.insertState (h := ⟨_, _⟩) rfl room named free
      obtain ⟨noInitial, noFinal⟩ := coherent.roles_insertState room draft
      refine ⟨⟨later, by rw [replayed, List.append_nil]; rfl, answers⟩,
        congrArg Report.result (inserted.makeInitial_of_unheld noInitial), ?_⟩
      rw [Automaton.makeFinal_of_unheld]
      · rfl
      · exact noFinal

/-- The sample gets a state with the name of the one that was removed, all edges and roles. -/
theorem sampled_assembled : ∃ record next report later, Run .empty record sampled ∧
    sampled.automaton? 0 = some .sample ∧
    sampled.perform? (.edit 0 (.add ⟨"q", some ⟨0, 0⟩, some ⟨0, 3⟩, true, true⟩)) = some (next, report) ∧
    report.result = .ok (.issued ⟨0, 4⟩) ∧
    sampled.replay [] [.edit 0 (.add ⟨"q", none, none, false, false⟩),
      .edit 0 (.connect ⟨0, 4⟩ .a ⟨0, 0⟩), .edit 0 (.connect ⟨0, 4⟩ .b ⟨0, 3⟩),
      .edit 0 (.setInitial ⟨0, 4⟩), .edit 0 (.setFinal ⟨0, 4⟩)] = some (later, next) ∧
    later.map (·.report.result) = [.ok (.outcome .applied), .ok (.outcome .applied), .ok .done,
      .ok .done, .ok (.issued ⟨0, 4⟩)] := by
  obtain ⟨record, run⟩ := sampled_run
  obtain ⟨⟨later, replayed, answers⟩, _⟩ := add_is_assembled run
    (show sampled.automaton? 0 = some .sample from rfl)
    (show sampled.perform? (.edit 0 (.add ⟨"q", some ⟨0, 0⟩, some ⟨0, 3⟩, true, true⟩)) = some (_, _)
      from rfl) rfl
  exact ⟨record, _, _, later, run, rfl, rfl, rfl, replayed, answers⟩

end Session
end BinaryAutomata
