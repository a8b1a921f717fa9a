import BinaryAutomata.Proofs.Absence
import BinaryAutomata.Proofs.Renumbering
import BinaryAutomata.Proofs.Slots

/-! Clones do not interfere while indices last. What is done to the other automata of a session moves the
indices that an automaton is issued, and nothing else of it: carried out between other deeds, the same
edits of it get the same answers, and so do all questions, up to a renumbering that keeps the order. But
the supply of indices is shared to its end, and clones can use it up. -/
namespace BinaryAutomata

/-- Up to the renumbering, which keeps the order of all indices that the automaton can know of, the same
edits have got the same answers, and so do all questions. -/
structure Agree (ρ : Nat → Nat) (tag : FamilyTag) (base : Nat) (dealings dealings' : List Dealing)
    (d d' : Automaton) : Prop where
  increasing : StrictMonoOn ρ (knownIndices base dealings)
  dealt : dealings' = dealings.map (·.relabel (·.renumber tag ρ))
  answers : d.AnswersAlike (·.renumber tag ρ) (·.Among tag (knownIndices base dealings)) d'

theorem Lineage.settled (lineage : Lineage d history next) : d.Settled next where
  coherent := lineage.sound.1
  room := lineage.sound.2
  target_lt {h target s} edge := by
    obtain ⟨q, live, _⟩ := Option.bind_eq_some_iff.mp edge
    obtain ⟨later, deed, earlier, rfl, writes, _⟩ :=
      edge ▸ lineage.last_written (Automaton.contains_iff.mpr ⟨q, live⟩) s
    have issued := mem_issuedBy_of_kept (lineage.target_kept writes)
    refine lineage.issued_bounds.2 target ?_
    simp only [issuedBy, List.mem_filterMap, List.mem_reverse] at issued ⊢
    obtain ⟨origin, member, same⟩ := issued
    exact ⟨origin, by simp [member], same⟩

namespace Session

/-- When the record of the run is `before`, the automaton `number` is `d`. -/
def Passes (start : Session) (before : List Entry) (number : Nat) (d : Automaton) : Prop :=
  ∃ session, Run start before session ∧ session.automaton? number = some d

/-- A record tells what the session has come to. -/
theorem Run.unique {start session session' : Session} (run : Run start record session)
    (runToo : Run start record session') : session = session' := by
  induction run generalizing session' with
  | refl =>
    cases runToo
    rfl
  | perform _ performed ih =>
    cases runToo with
    | perform before performedToo =>
      cases ih before
      exact (Prod.mk.inj (Option.some.inj (performed.symm.trans performedToo))).1

theorem Run.of_suffix {start final : Session} (run : Run start later final) (part : before <:+ later) :
    ∃ middle, Run start before middle := by
  induction run with
  | refl =>
    rw [List.suffix_nil] at part
    exact part ▸ ⟨_, .refl _⟩
  | perform earlier performed ih =>
    obtain rfl | part := List.suffix_cons_iff.mp part
    · exact ⟨_, earlier.perform performed⟩
    · exact ih part

/-- Own handles that were issued so far have indices below the supply. -/
theorem Run.issued_early {session : Session} {member : Member} {number : Nat} (run : Run .empty record session)
    (few : session.members.size < UInt32.size) (held : session.members[number]? = some member)
    (logged : entry ∈ record) (issues : entry.Issues other h) (own : h.owner = member.automaton.tag) :
    h.index < session.supply member.family := by
  by_cases kin : session.family? other = session.family? number
  · obtain ⟨family, known, less⟩ := run.issued_lt logged issues
    have same : member.family = family := by
      rw [kin] at known
      simpa [family?, held] using known
    rwa [same]
  · have tags := Nat.le_of_lt (Nat.lt_of_le_of_lt run.families_le few)
    exact absurd own (run.foreign_owner tags held logged issues kin)

/-- Two runs have found the same supplies exhausted if they have exhausted none. -/
theorem Run.exhaustedAlike {start session session' : Session} {member : Member}
    (run : Run .empty record start) (held : start.members[number]? = some member)
    (first : Run start before session) (second : Run start before' session')
    (level : (dealingsWith number before).length = (dealingsWith number before').length)
    (left : session.supply member.family < Automaton.supplyLimit)
    (leftToo : session'.supply member.family < Automaton.supplyLimit) :
    ExhaustedAlike (dealingsWith number before) (dealingsWith number before') := by
  obtain ⟨_, _, course⟩ := run.course held first
  obtain ⟨_, _, course'⟩ := run.course held second
  refine List.forall₂_iff_get.mpr ⟨level, fun i inside insideToo => ?_⟩
  exact iff_of_false (course.unexhausted left _ (List.get_mem _ _))
    (course'.unexhausted leftToo _ (List.get_mem _ _))

section Draining
variable {start : Session} {member : Member} {source : Nat} {draft : Draft}

/-- Nothing has been asked of the automata that there were, and they are as they were. -/
structure Spares (start : Session) (later : List Entry) (final : Session) : Prop where
  size : start.members.size ≤ final.members.size
  quiet : ∀ number < start.members.size, dealingsWith number later = []
  kept : ∀ number < start.members.size, final.members[number]? = start.members[number]?

theorem Spares.trans (spares : Spares start before middle) (more : Spares middle later final) :
    Spares start (later ++ before) final where
  size := Nat.le_trans spares.size more.size
  quiet number earlier := by
    rw [dealingsWith, List.filterMap_append]
    exact congrArg₂ (· ++ ·) (more.quiet number (Nat.lt_of_lt_of_le earlier spares.size))
      (spares.quiet number earlier)
  kept number earlier :=
    (more.kept number (Nat.lt_of_lt_of_le earlier spares.size)).trans (spares.kept number earlier)

/-- A fresh clone that adds a state draws an index from the supply of its family. -/
theorem Run.draw (run : Run .empty record start) (held : start.members[source]? = some member)
    (edited : ∀ next < Automaton.supplyLimit,
      ∃ d, member.automaton.Edited next (.add draft) d (.issued ⟨member.automaton.tag, next⟩))
    (left : start.supply member.family < Automaton.supplyLimit) :
    ∃ later final, Run start later final ∧ Spares start later final ∧
      final.supply member.family = start.supply member.family + 1 := by
  have copied : start.perform? (.clone source) = some (⟨start.members.push member, start.supplies⟩,
    pure (.created start.members.size)) := by simp [perform?, held]
  have found : (Session.mk (start.members.push member) start.supplies).members[start.members.size]? =
    some member := Array.getElem?_push_size
  obtain ⟨d, added⟩ := edited _ left
  obtain ⟨report, performed, _⟩ := perform?_of_edited found added
  refine ⟨_, _, .perform (.perform (.refl start) copied) performed, ⟨?_, ?_, ?_⟩, ?_⟩
  · simp [commit]
  · intro number earlier
    simp [dealingsWith, Entry.dealing?, (Nat.ne_of_lt earlier).symm]
  · intro number earlier
    have other : number ≠ start.members.size := Nat.ne_of_lt earlier
    rw [member_commit found, if_neg other, Array.getElem?_push, if_neg other]
  · have known : member.family < (Session.mk (start.members.push member) start.supplies).supplies.size :=
      (run.lineage held).1
    rw [supply_commit known, if_pos rfl]
    rfl

/-- So clones can draw any number of indices, to the last one, without touching an automaton. -/
theorem Run.drain (run : Run .empty record start) (held : start.members[source]? = some member)
    (edited : ∀ next < Automaton.supplyLimit,
      ∃ d, member.automaton.Edited next (.add draft) d (.issued ⟨member.automaton.tag, next⟩))
    (n : Nat) (left : start.supply member.family + n ≤ Automaton.supplyLimit) :
    ∃ later final, Run start later final ∧ Spares start later final ∧
      final.supply member.family = start.supply member.family + n := by
  induction n with
  | zero =>
    exact ⟨[], start, .refl start, ⟨Nat.le_refl _, fun _ _ => rfl, fun _ _ => rfl⟩, rfl⟩
  | succ n ih =>
    obtain ⟨before, middle, passed, spares, drawn⟩ := ih (by omega)
    obtain ⟨inside, _⟩ := Array.getElem?_eq_some_iff.mp held
    have heldStill := (spares.kept source inside).trans held
    obtain ⟨later, final, drew, more, drawnToo⟩ := (run.trans passed).draw heldStill edited (by omega)
    exact ⟨later ++ before, final, passed.trans drew, spares.trans more, by omega⟩

end Draining

/-- Two sessions that agree up to some moment and from then on ask the same edits of an automaton, in
terms of handles issued up to then, by whichever automaton, and of those that its own adds return. They
may do anything to the others. Then some renumbering keeps the indices issued up to then and the order
of those that the automaton gets, and it takes all answers in the one session to those in the other. It
does so at any two moments that correspond, unless the one family has run out of indices and the other
has not. -/
theorem clones_do_not_interfere {start final final' : Session} {member : Member}
    (run : Run .empty record start) (held : start.members[number]? = some member)
    (first : Run start later final) (second : Run start later' final')
    (same : InStep member.automaton.tag (start.supply member.family) (dealingsWith number later)
      (dealingsWith number later')) :
    (start.members.size < UInt32.size → ∀ entry ∈ record, ∀ other h, entry.Issues other h →
      h.owner = member.automaton.tag → h.index < start.supply member.family) ∧
    (∀ before session before' session', Run start before session → Run start before' session' →
      (dealingsWith number before).length = (dealingsWith number before').length →
      session.supply member.family < Automaton.supplyLimit →
      session'.supply member.family < Automaton.supplyLimit →
      ExhaustedAlike (dealingsWith number before) (dealingsWith number before')) ∧
    ∃ ρ : Nat → Nat, (∀ i < start.supply member.family, ρ i = i) ∧
      ∀ before before', before <:+ later → before' <:+ later' →
        ExhaustedAlike (dealingsWith number before) (dealingsWith number before') →
        ∃ d d', start.Passes before number d ∧ start.Passes before' number d' ∧
          Agree ρ member.automaton.tag (start.supply member.family) (dealingsWith number before)
            (dealingsWith number before') d d' := by
  refine ⟨?_, ?_, ?_⟩
  · intro few entry logged other h issues own
    exact run.issued_early few held logged issues own
  · intro before session before' session' passed passed'
    exact run.exhaustedAlike held passed passed'
  · obtain ⟨_, _, course⟩ := run.course held first
    obtain ⟨ascending, bounds⟩ := course.returned_bounds
    obtain ⟨ρ, kept, ranked⟩ := exists_renumbering (start.supply member.family)
      (returned (dealingsWith number later)) (returned (dealingsWith number later')) ascending
      fun h listed => (bounds h listed).2.1
    refine ⟨ρ, kept, ?_⟩
    intro before before' part partToo exhausted
    obtain ⟨middle, passed⟩ := first.of_suffix part
    obtain ⟨middle', passed'⟩ := second.of_suffix partToo
    obtain ⟨d, found, course⟩ := run.course held passed
    obtain ⟨d', found', course'⟩ := run.course held passed'
    have part : dealingsWith number before <:+ dealingsWith number later := part.filterMap _
    have partToo : dealingsWith number before' <:+ dealingsWith number later' := partToo.filterMap _
    have sameBefore := same.of_suffix part partToo exhausted.length_eq
    obtain ⟨corresponds, renumbered⟩ := course.in_step sameBefore course'
      (run.lineage held).2.settled kept (Ranked.of_suffix ranked part partToo) exhausted
    have increasing := course.strictMonoOn course' kept (by rw [corresponds, returned_relabel])
    exact ⟨d, d', ⟨middle, passed, by simp [automaton?, found]⟩,
      ⟨middle', passed', by simp [automaton?, found']⟩,
      ⟨increasing, corresponds, renumbered.answersAlike⟩⟩

/-- A single state, without a role. -/
def lone : Automaton := ⟨0, .standard, ⟨#[some ⟨"p", none, none⟩]⟩, ⟨[("p", ⟨0, 0⟩)]⟩, none, []⟩

/-- A session that has taken a clone of an automaton with one state. -/
def forked : Session := ⟨#[⟨0, lone⟩, ⟨0, lone⟩], #[1]⟩

theorem forked_arises : ∃ record, Run .empty record forked := by
  have run : Run .empty
      [⟨.clone 0, ⟨[], .ok (.created 1)⟩⟩,
        ⟨.edit 0 (.add ⟨"p", none, none, false, false⟩),
          ⟨[.addedState "p" ⟨0, 0⟩], .ok (.issued ⟨0, 0⟩)⟩⟩,
        ⟨.found .standard, ⟨[], .ok (.created 0)⟩⟩] forked :=
    .perform (.perform (.perform (.refl .empty) rfl) rfl) rfl
  exact ⟨_, run⟩

/-- It goes on with the original alone. -/
def undisturbed : Session where
  members := #[⟨0, 0, .standard, ⟨#[some ⟨"p", none, some ⟨0, 1⟩⟩, some ⟨"q", some ⟨0, 0⟩, none⟩]⟩,
      ⟨[("q", ⟨0, 1⟩), ("p", ⟨0, 0⟩)]⟩, none, [⟨0, 1⟩]⟩,
    ⟨0, 0, .standard, ⟨#[some ⟨"p", none, none⟩]⟩, ⟨[("p", ⟨0, 0⟩)]⟩, none, []⟩]
  supplies := #[2]

/-- It goes on with the original in the same way, and with the clone in between. -/
def disturbed : Session where
  members := #[⟨0, 0, .standard, ⟨#[some ⟨"p", none, some ⟨0, 2⟩⟩, none, some ⟨"q", some ⟨0, 0⟩, none⟩]⟩,
      ⟨[("q", ⟨0, 2⟩), ("p", ⟨0, 0⟩)]⟩, none, [⟨0, 2⟩]⟩,
    ⟨0, 0, .standard, ⟨#[none, some ⟨"r", none, none⟩]⟩, ⟨[("r", ⟨0, 1⟩)]⟩, none, []⟩]
  supplies := #[3]

/-- The state that the original adds has another index in the disturbed session, and all else is the
same. -/
theorem undisturbed_disturbed : ∃ record later later' ρ d d', Run .empty record forked ∧
    Run forked later undisturbed ∧ Run forked later' disturbed ∧
    undisturbed.automaton? 0 = some d ∧ disturbed.automaton? 0 = some d' ∧
    (∀ h, h.owner = 0 → h.index < 1 → StateId.renumber 0 ρ h = h) ∧
    StateId.renumber 0 ρ ⟨0, 1⟩ = ⟨0, 2⟩ ∧
    Agree ρ 0 1 (dealingsWith 0 later) (dealingsWith 0 later') d d' := by
  obtain ⟨record, run⟩ := forked_arises
  have first : Run forked
      [⟨.edit 0 (.connect ⟨0, 0⟩ .b ⟨0, 1⟩), ⟨[.connected ⟨0, 0⟩ .b ⟨0, 1⟩], .ok .done⟩⟩,
        ⟨.edit 0 (.add ⟨"q", some ⟨0, 0⟩, none, false, true⟩),
          ⟨[.addedState "q" ⟨0, 1⟩, .becameFinal "q"], .ok (.issued ⟨0, 1⟩)⟩⟩] undisturbed :=
    .perform (.perform (.refl forked) rfl) rfl
  have second : Run forked
      [⟨.edit 1 (.remove ⟨0, 0⟩), ⟨[.removedState "p" ⟨0, 0⟩], .ok (.outcome .applied)⟩⟩,
        ⟨.edit 0 (.connect ⟨0, 0⟩ .b ⟨0, 2⟩), ⟨[.connected ⟨0, 0⟩ .b ⟨0, 2⟩], .ok .done⟩⟩,
        ⟨.edit 0 (.add ⟨"q", some ⟨0, 0⟩, none, false, true⟩),
          ⟨[.addedState "q" ⟨0, 2⟩, .becameFinal "q"], .ok (.issued ⟨0, 2⟩)⟩⟩,
        ⟨.edit 1 (.add ⟨"r", none, none, false, false⟩),
          ⟨[.addedState "r" ⟨0, 1⟩], .ok (.issued ⟨0, 1⟩)⟩⟩] disturbed :=
    .perform (.perform (.perform (.perform (.refl forked) rfl) rfl) rfl) rfl
  have held : forked.members[0]? = some ⟨0, lone⟩ := rfl
  have same : InStep 0 1
      [⟨.connect ⟨0, 0⟩ .b ⟨0, 1⟩, .ok .done⟩,
        ⟨.add ⟨"q", some ⟨0, 0⟩, none, false, true⟩, .ok (.issued ⟨0, 1⟩)⟩]
      [⟨.connect ⟨0, 0⟩ .b ⟨0, 2⟩, .ok .done⟩,
        ⟨.add ⟨"q", some ⟨0, 0⟩, none, false, true⟩, .ok (.issued ⟨0, 2⟩)⟩] := by
    refine .cons (.cons .nil id ?_) (fun h => if h = ⟨0, 0⟩ then h else ⟨0, 2⟩) ?_
    · simpa using .early (by decide)
    · simp only [Edit.handles, List.forall_mem_cons]
      exact ⟨.early (by decide), .late 0 rfl rfl, by simp⟩
  obtain ⟨_, alike, ρ, kept, agree⟩ := clones_do_not_interfere run held first second same
  obtain ⟨d, d', ⟨_, passed, now⟩, ⟨_, passed', now'⟩, agree⟩ := agree _ _ (List.suffix_refl _)
    (List.suffix_refl _) (alike _ _ _ _ first second rfl (by decide) (by decide))
  cases passed.unique first
  cases passed'.unique second
  have moved : [⟨0, 2⟩] = [StateId.renumber 0 ρ ⟨0, 1⟩] :=
    (congrArg returned agree.dealt).trans (returned_relabel _ _)
  refine ⟨_, _, _, ρ, d, d', run, first, second, now, now', ?_, (List.cons.inj moved).1.symm, agree⟩
  intro h _ old
  exact StateId.renumber_eq_self kept fun _ => old

def newcomer : Draft := ⟨"q", none, none, false, false⟩

/-- Clones of the clone draw all indices that are left. Asked to add a state, the original then answers
with an error, and without them with a handle: no renumbering takes the one answer to the other. -/
theorem drained_clones_interfere : ∃ record later later' final final', Run .empty record forked ∧
    Run forked later final ∧ Run forked later' final' ∧
    InStep 0 1 (dealingsWith 0 later) (dealingsWith 0 later') ∧
    dealingsWith 0 later = [⟨.add newcomer, .ok (.issued ⟨0, 1⟩)⟩] ∧
    dealingsWith 0 later' = [⟨.add newcomer, .error .tooManyStates⟩] ∧
    ¬ ∃ ρ d d', (∀ i < 1, ρ i = i) ∧ forked.Passes later 0 d ∧ forked.Passes later' 0 d' ∧
      Agree ρ 0 1 (dealingsWith 0 later) (dealingsWith 0 later') d d' := by
  obtain ⟨record, run⟩ := forked_arises
  have alone : forked.perform? (.edit 0 (.add newcomer)) =
    some (_, ⟨[.addedState "q" ⟨0, 1⟩], .ok (.issued ⟨0, 1⟩)⟩) := rfl
  have held : forked.members[1]? = some ⟨0, lone⟩ := rfl
  obtain ⟨drawn, drained, passed, spares, supply⟩ := run.drain held
    (fun next supplied => ⟨_, .add (show newcomer.name ≠ "" by decide) rfl (by simp [newcomer])
      (by simp [newcomer]) supplied⟩) (Automaton.supplyLimit - 1) (by decide)
  have supply : drained.supply 0 = Automaton.supplyLimit := supply
  have kept : drained.members[0]? = some ⟨0, lone⟩ := spares.kept 0 (by decide)
  have among : drained.perform? (.edit 0 (.add newcomer)) =
      some (drained, ⟨[], .error .tooManyStates⟩) := by
    simp only [perform?, kept, Option.map_some, supply]
    rfl
  have dealt : dealingsWith 0 (⟨.edit 0 (.add newcomer), ⟨[], .error .tooManyStates⟩⟩ :: drawn) =
      [⟨.add newcomer, .error .tooManyStates⟩] := congrArg (_ :: ·) (spares.quiet 0 (by decide))
  refine ⟨record, _, _, _, _, run, (Run.refl forked).perform alone, passed.perform among, ?_, rfl, dealt,
    ?_⟩
  · rw [dealt]
    exact .cons .nil id (by simp [newcomer])
  · rintro ⟨ρ, d, d', _, _, _, agree⟩
    have alike := agree.dealt
    rw [dealt] at alike
    cases alike

end Session
end BinaryAutomata
