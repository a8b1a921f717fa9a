import BinaryAutomata.Proofs.InPlace

/-! Edits happen as a whole or not at all. One that is refused or finds nothing to do leaves the whole
session as it was, and each cause of either is told from the automaton before. -/
namespace BinaryAutomata

namespace Automaton

/-- An edit that finds nothing to do, with the notice that it gives. -/
inductive Idle (d : Automaton) : Edit → Notice → Prop where
  | remove (dead : d.contains h = false) : Idle d (.remove h) .stateNotFound
  | setInitial (live : d.contains h = true) (holds : d.isInitial h = true) :
      Idle d (.setInitial h) .alreadyInitial
  | setFinal (live : d.contains h = true) (holds : d.isFinal h = true) :
      Idle d (.setFinal h) .alreadyFinal

/-- An edit that finds something to do, of those that may find nothing. -/
inductive Effective (d : Automaton) : Edit → Prop where
  | remove (live : d.contains h = true) : Effective d (.remove h)
  | setInitial (live : d.contains h = true) (lacks : d.isInitial h = false) : Effective d (.setInitial h)
  | setFinal (live : d.contains h = true) (lacks : d.isFinal h = false) : Effective d (.setFinal h)

variable {d d' : Automaton} {next : Nat} {e : Edit}

theorem Refused.not_idle (refused : d.Refused next e cause) : ¬ d.Idle e notice := by
  intro idle
  cases idle with
  | remove => cases refused
  | setInitial live | setFinal live => cases refused; simp_all

theorem Refused.not_effective (refused : d.Refused next e cause) : ¬ d.Effective e := by
  intro effective
  cases effective with
  | remove => cases refused
  | setInitial live | setFinal live => cases refused; simp_all

namespace Edited

theorem unchanged_iff (edited : d.Edited next e d' reply) (notice : Notice) :
    reply = .outcome (.unchanged notice) ↔ d.Idle e notice := by
  constructor
  · intro unchanged
    cases edited with
    | removeUnknown dead =>
      cases unchanged
      exact .remove (by simp [contains, dead])
    | @setInitial h live =>
      cases holds : d.isInitial h with
      | true =>
        simp only [holds, if_true, Reply.outcome.injEq, Outcome.unchanged.injEq] at unchanged
        exact unchanged ▸ .setInitial live holds
      | false => simp [holds] at unchanged
    | @setFinal h live =>
      cases holds : d.isFinal h with
      | true =>
        simp only [holds, if_true, Reply.outcome.injEq, Outcome.unchanged.injEq] at unchanged
        exact unchanged ▸ .setFinal live holds
      | false => simp [holds] at unchanged
    | add | remove | rename | connect | disconnect => cases unchanged
  · intro idle
    cases idle with
    | remove dead =>
      cases edited with
      | remove live => simp [contains, live] at dead
      | removeUnknown => rfl
    | setInitial _ holds => cases edited; simp [holds]
    | setFinal _ holds => cases edited; simp [holds]

theorem applied_iff (edited : d.Edited next e d' reply) :
    reply = .outcome .applied ↔ d.Effective e := by
  constructor
  · intro applied
    cases edited with
    | remove live => exact .remove (Automaton.contains_iff.mpr ⟨_, live⟩)
    | @setInitial h live =>
      cases holds : d.isInitial h with
      | true => simp [holds] at applied
      | false => exact .setInitial live holds
    | @setFinal h live =>
      cases holds : d.isFinal h with
      | true => simp [holds] at applied
      | false => exact .setFinal live holds
    | add | removeUnknown | rename | connect | disconnect => cases applied
  · intro effective
    cases effective with
    | remove live =>
      cases edited with
      | remove => rfl
      | removeUnknown dead => simp [contains, dead] at live
    | setInitial _ lacks => cases edited; simp [lacks]
    | setFinal _ lacks => cases edited; simp [lacks]

theorem eq_of_idle (edited : d.Edited next e d' reply) (idle : d.Idle e notice) : d' = d := by
  cases idle with
  | remove dead =>
    cases edited with
    | remove live => simp [contains, live] at dead
    | removeUnknown => rfl
  | setInitial _ holds =>
    cases edited
    simp [withRoles, ← isInitial_iff.mp holds]
  | setFinal _ holds =>
    cases edited
    simp [withRoles, holds]

end Edited
end Automaton

namespace Session

variable {session : Session}

theorem commit_unchanged {member : Member} (held : session.members[number]? = some member)
    (outcome : Outcome) :
    session.commit number member member.automaton (.outcome outcome) = session :=
  congrArg (Session.mk · session.supplies) (Arena.setIfInBounds_eq_self held)

/-- An edit of an automaton is refused or carried out, and one that is refused changes nothing. -/
theorem Run.edit_cases (run : Run .empty record session)
    (held : session.members[number]? = some member) (e : Edit) :
    ∃ next report, session.perform? (.edit number e) = some (next, report) ∧
      ((∃ cause, member.automaton.Refused (session.supply member.family) e cause ∧
          report.result = .error cause ∧ next = session) ∨
        ∃ d reply, member.automaton.Edited (session.supply member.family) e d reply ∧
          report.result = .ok reply ∧ next = session.commit number member d reply) := by
  have coherent := (run.lineage held).2.sound.1
  let report := member.automaton.edit (session.supply member.family) e
  cases outcome : report.result with
  | error cause =>
    exact ⟨session, ⟨report.events, .error cause⟩, by simp [perform?, held, report, outcome],
      .inl ⟨cause, coherent.edit_eq_error_iff.mp outcome, rfl, rfl⟩⟩
  | ok done =>
    have edited := Automaton.edit_eq_ok_iff.mp outcome
    obtain ⟨report, performed, answer⟩ := perform?_of_edited held edited
    exact ⟨_, report, performed, .inr ⟨done.1, done.2, edited, answer, rfl⟩⟩

/-- How an edit in place ends that gives this answer and leaves this on the bench. -/
def ended (answer : Except Error Reply) (bench : Bench) : EStateM.Result Error Bench Reply :=
  match answer with
  | .ok reply => .ok reply bench
  | .error cause => .error cause bench

theorem Run.edited_in_place (run : Run .empty record session)
    (held : session.members[number]? = some member)
    (edited : member.automaton.Edited (session.supply member.family) e d reply) :
    (session.commit number member d reply).automaton? number = some d ∧
      (InPlace.edit e).run ⟨member.automaton, session.supply member.family⟩ =
        .ok reply ⟨d, (session.commit number member d reply).supply member.family⟩ := by
  constructor
  · simp [automaton?, member_commit held]
  · rw [supply_commit (run.lineage held).1, if_pos rfl]
    exact edited.run_inPlace

/-- An edit is refused exactly for the cause that the first failing check gives, and it finds nothing
to do exactly where it has nothing to change; after either the whole session is as it was before. This
is no merit of editing a copy: carried out in place, part by part, the edit gives the same answer and
leaves the same automaton and supply behind. -/
theorem edits_are_atomic (run : Run .empty record session)
    (held : session.members[number]? = some member) (e : Edit) :
    ∃ next report d', session.perform? (.edit number e) = some (next, report) ∧
      next.automaton? number = some d' ∧
      (∀ cause, report.result = .error cause ↔
        member.automaton.Refused (session.supply member.family) e cause) ∧
      (∀ notice, report.result = .ok (.outcome (.unchanged notice)) ↔ member.automaton.Idle e notice) ∧
      (report.result = .ok (.outcome .applied) ↔ member.automaton.Effective e) ∧
      ((∃ cause, report.result = .error cause) ∨
        (∃ notice, report.result = .ok (.outcome (.unchanged notice))) → next = session) ∧
      (InPlace.edit e).run ⟨member.automaton, session.supply member.family⟩ =
        ended report.result ⟨d', next.supply member.family⟩ := by
  have coherent := (run.lineage held).2.sound.1
  obtain ⟨next, report, performed, ⟨cause, refused, answer, rfl⟩ | ⟨d, reply, edited, answer, rfl⟩⟩ :=
    run.edit_cases held e
  · refine ⟨_, report, member.automaton, performed, by simp [automaton?, held], ?_, ?_, ?_, ?_, ?_⟩
    · intro other
      rw [answer, Except.error.injEq]
      constructor
      · rintro rfl
        exact refused
      · intro refusedToo
        have first := coherent.edit_eq_error_iff.mpr refused
        exact Except.error.inj (first.symm.trans (coherent.edit_eq_error_iff.mpr refusedToo))
    · intro notice
      simp [answer, refused.not_idle]
    · simp [answer, refused.not_effective]
    · exact fun _ => rfl
    · rw [answer]
      exact refused.run_inPlace coherent
  · obtain ⟨kept, placed⟩ := run.edited_in_place held edited
    refine ⟨_, report, d, performed, kept, ?_, ?_, ?_, ?_, ?_⟩
    · intro cause
      rw [answer, ← coherent.edit_eq_error_iff, Automaton.edit_eq_ok_iff.mpr edited]
      simp
    · intro notice
      rw [answer, Except.ok.injEq, edited.unchanged_iff]
    · rw [answer, Except.ok.injEq, edited.applied_iff]
    · rintro (⟨cause, refused⟩ | ⟨notice, unchanged⟩)
      · simp [answer] at refused
      · have same := Except.ok.inj (answer.symm.trans unchanged)
        have idle := (edited.unchanged_iff notice).mp same
        rw [edited.eq_of_idle idle, same]
        exact commit_unchanged held _
    · rw [answer]
      exact placed

/-- A session of one automaton, whose only state has both roles. -/
def solo : Session where
  members := #[⟨0, 0, .standard, ⟨#[some ⟨"p", none, none⟩]⟩, ⟨[("p", ⟨0, 0⟩)]⟩, some ⟨0, 0⟩, [⟨0, 0⟩]⟩]
  supplies := #[1]

/-- An add with an edge to nowhere fails although its name is free, and takes no index; and to give the
state a role that it has already is no error. -/
theorem solo_unaltered : ∃ record, Run .empty record solo ∧
    (∃ report, solo.perform? (.edit 0 (.add ⟨"q", some ⟨0, 0⟩, some ⟨0, 1⟩, true, true⟩)) =
      some (solo, report) ∧ report.result = .error (.stateNotFound ⟨0, 1⟩)) ∧
    ∃ report, solo.perform? (.edit 0 (.setInitial ⟨0, 0⟩)) = some (solo, report) ∧
      report.result = .ok (.outcome (.unchanged .alreadyInitial)) := by
  have run : Run .empty
      [⟨.edit 0 (.add ⟨"p", none, none, true, true⟩),
          ⟨[.addedState "p" ⟨0, 0⟩, .becameInitial "p", .becameFinal "p"], .ok (.issued ⟨0, 0⟩)⟩⟩,
        ⟨.found .standard, ⟨[], .ok (.created 0)⟩⟩] solo :=
    .perform (.perform (.refl .empty) rfl) rfl
  have held : solo.members[0]? = some ⟨0, 0, .standard, ⟨#[some ⟨"p", none, none⟩]⟩,
    ⟨[("p", ⟨0, 0⟩)]⟩, some ⟨0, 0⟩, [⟨0, 0⟩]⟩ := rfl
  refine ⟨_, run, ?_, ?_⟩
  · obtain ⟨next, report, d', performed, _, refusals, _, _, same, _⟩ :=
      edits_are_atomic run held (.add ⟨"q", some ⟨0, 0⟩, some ⟨0, 1⟩, true, true⟩)
    have free : Automaton.NameFree ⟨0, .standard, ⟨#[some ⟨"p", none, none⟩]⟩, ⟨[("p", ⟨0, 0⟩)]⟩,
        some ⟨0, 0⟩, [⟨0, 0⟩]⟩ none "q" := ⟨by decide, by decide⟩
    have answer := (refusals (.stateNotFound ⟨0, 1⟩)).mpr (.addOnB free (by decide) rfl rfl)
    cases same (.inl ⟨_, answer⟩)
    exact ⟨report, performed, answer⟩
  · obtain ⟨next, report, d', performed, _, _, notices, _, same, _⟩ :=
      edits_are_atomic run held (.setInitial ⟨0, 0⟩)
    have answer := (notices .alreadyInitial).mpr (.setInitial rfl rfl)
    cases same (.inr ⟨_, answer⟩)
    exact ⟨report, performed, answer⟩

end Session
end BinaryAutomata
