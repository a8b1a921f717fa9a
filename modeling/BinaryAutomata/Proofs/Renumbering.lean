import BinaryAutomata.Proofs.Course
import Mathlib.Order.Monotone.Defs

/-! Courses in step. Where an automaton takes two courses by the same edits, and only the indices that
its family issues differ, some renumbering takes all of the one to the other and keeps the order. -/
namespace BinaryAutomata

/-- The handles of the family get the indices that `ρ` gives, all others stay. -/
def StateId.renumber (tag : FamilyTag) (ρ : Nat → Nat) (h : StateId) : StateId :=
  if h.owner = tag then ⟨tag, ρ h.index⟩ else h

/-- The handle is of another family, or it has one of the indices. -/
def StateId.Among (h : StateId) (tag : FamilyTag) (indices : Set Nat) : Prop :=
  h.owner = tag → h.index ∈ indices

/-- The indices of its family that an automaton can know of: those below `base`, which were issued
before its dealings, and those that were returned to it. -/
def knownIndices (base : Nat) (dealings : List Dealing) : Set Nat :=
  {i | i < base ∨ ∃ h ∈ returned dealings, h.index = i}

/-- The handles by which the same state is meant, in either of two courses: the same one if it is from
before, or those that the adds of the same rank returned. -/
inductive Matched (tag : FamilyTag) (base : Nat) (dealings dealings' : List Dealing) :
    StateId → StateId → Prop where
  | early (old : h.owner = tag → h.index < base) : Matched tag base dealings dealings' h h
  | late (rank : Nat) (first : (returned dealings)[rank]? = some h)
      (second : (returned dealings')[rank]? = some g) : Matched tag base dealings dealings' h g

/-- The same edits are asked for one after the other, by handles that match. Nothing is said about
the answers. -/
inductive InStep (tag : FamilyTag) (base : Nat) : List Dealing → List Dealing → Prop where
  | nil : InStep tag base [] []
  | cons (before : InStep tag base dealings dealings') (f : StateId → StateId)
      (matched : ∀ h ∈ e.handles, Matched tag base dealings dealings' h (f h)) :
      InStep tag base (⟨e, answer⟩ :: dealings) (⟨e.relabel f, answer'⟩ :: dealings')

/-- There are as many dealings in both, and of each two both have found the indices exhausted or
neither has. -/
def ExhaustedAlike (dealings dealings' : List Dealing) : Prop :=
  List.Forall₂ (fun dealing dealing' =>
    dealing.answer = .error .tooManyStates ↔ dealing'.answer = .error .tooManyStates) dealings dealings'

/-- `ρ` takes the index that an add returned in the one to what the add of that rank returned in the
other. -/
def Ranked (ρ : Nat → Nat) (dealings dealings' : List Dealing) : Prop :=
  ∀ (rank : Nat) h g, (returned dealings)[rank]? = some h → (returned dealings')[rank]? = some g →
    ρ h.index = g.index

/-- The automaton is in order, and it refers to no index from `base` on. -/
structure Automaton.Settled (d : Automaton) (base : Nat) : Prop where
  coherent : d.Coherent
  room : d.arena.size ≤ base
  target_lt {h target : StateId} {s : Symbol} : d.transition? h s = some target → target.index < base

variable {tag : FamilyTag} {ρ : Nat → Nat} {base : Nat} {g h : StateId}
  {dealings dealings' before before' : List Dealing}

namespace StateId

theorem renumber_of_owner (own : h.owner = tag) : h.renumber tag ρ = ⟨tag, ρ h.index⟩ := if_pos own

theorem renumber_eq_self (kept : ∀ i < base, ρ i = i) (old : h.owner = tag → h.index < base) :
    h.renumber tag ρ = h := by
  by_cases own : h.owner = tag
  · rw [renumber_of_owner own, kept _ (old own)]
    exact StateId.ext own.symm rfl
  · exact if_neg own

end StateId

theorem renumbering_of_strictMonoOn {indices : Set Nat} (increasing : StrictMonoOn ρ indices) :
    Renumbering (StateId.renumber tag ρ) (·.Among tag indices) where
  owner h := by
    by_cases own : h.owner = tag
    · rw [StateId.renumber_of_owner own, own]
    · rw [StateId.renumber, if_neg own]
  increasing {g h} among amongToo kin less := by
    by_cases own : g.owner = tag
    · have ownToo := kin.symm.trans own
      rw [StateId.renumber_of_owner own, StateId.renumber_of_owner ownToo]
      exact increasing (among own) (amongToo ownToo) less
    · rwa [StateId.renumber, if_neg own, StateId.renumber, if_neg fun same => own (kin.trans same)]

/-- Some renumbering takes one listing by ascending index to another, place by place. -/
theorem exists_renumbering (base : Nat) (left right : List StateId)
    (ascending : left.Pairwise fun g h => g.index < h.index) (above : ∀ h ∈ left, base ≤ h.index) :
    ∃ ρ : Nat → Nat, (∀ i < base, ρ i = i) ∧ ∀ (rank : Nat) h g, left[rank]? = some h →
      right[rank]? = some g → ρ h.index = g.index := by
  induction left generalizing right with
  | nil => exact ⟨id, fun _ _ => rfl, by simp⟩
  | cons h left ih =>
    cases right with
    | nil => exact ⟨id, fun _ _ => rfl, by simp⟩
    | cons g right =>
      obtain ⟨first, ascending⟩ := List.pairwise_cons.mp ascending
      obtain ⟨bound, above⟩ := List.forall_mem_cons.mp above
      obtain ⟨ρ, kept, matched⟩ := ih right ascending above
      refine ⟨Function.update ρ h.index g.index, ?_, ?_⟩
      · intro i less
        rw [Function.update_of_ne (by omega), kept i less]
      · intro rank h' g' found foundToo
        cases rank with
        | zero =>
          cases found
          cases foundToo
          exact Function.update_self ..
        | succ rank =>
          have later := first h' (List.mem_of_getElem? found)
          rw [Function.update_of_ne (Nat.ne_of_gt later)]
          exact matched rank h' g' found foundToo

theorem Matched.among (matched : Matched tag base dealings dealings' h g) :
    h.Among tag (knownIndices base dealings) := by
  intro own
  cases matched with
  | early old => exact .inl (old own)
  | late rank first second => exact .inr ⟨h, List.mem_of_getElem? first, rfl⟩

theorem Ranked.of_suffix (ranked : Ranked ρ dealings dealings') (part : before <:+ dealings)
    (partToo : before' <:+ dealings') : Ranked ρ before before' := by
  intro rank h g first second
  obtain ⟨rest, same⟩ := returned_prefix part
  obtain ⟨rest', same'⟩ := returned_prefix partToo
  refine ranked rank h g ?_ ?_
  · rw [← same, List.getElem?_append_left (List.getElem?_eq_some_iff.mp first).1, first]
  · rw [← same', List.getElem?_append_left (List.getElem?_eq_some_iff.mp second).1, second]

theorem InStep.length_eq (same : InStep tag base dealings dealings') :
    dealings.length = dealings'.length := by
  induction same with
  | nil => rfl
  | cons _ _ _ ih => exact congrArg Nat.succ ih

/-- What is in step from the beginning is in step up to any moment. -/
theorem InStep.of_suffix (same : InStep tag base dealings dealings') (part : before <:+ dealings)
    (partToo : before' <:+ dealings') (level : before.length = before'.length) :
    InStep tag base before before' := by
  induction same with
  | nil =>
    rw [List.suffix_nil] at part partToo
    rw [part, partToo]
    exact .nil
  | @cons dealings dealings' e answer answer' earlier f matched ih =>
    have lengths := earlier.length_eq
    obtain whole | part := List.suffix_cons_iff.mp part
    · obtain rfl | partToo := List.suffix_cons_iff.mp partToo
      · exact whole ▸ earlier.cons f matched
      · have bound := partToo.length_le
        simp only [whole, List.length_cons] at level
        omega
    · obtain rfl | partToo := List.suffix_cons_iff.mp partToo
      · have bound := part.length_le
        simp only [List.length_cons] at level
        omega
      · exact ih part partToo

namespace Course

variable {d now now' : Automaton} {next next' : Nat}

/-- Corresponding handles stand in the same order in both courses, for each adds at the end. -/
theorem strictMonoOn (course : Course d base dealings now next)
    (courseToo : Course d base dealings' now' next') (kept : ∀ i < base, ρ i = i)
    (corresponds : returned dealings' = (returned dealings).map (·.renumber d.tag ρ)) :
    StrictMonoOn ρ (knownIndices base dealings) := by
  obtain ⟨ascending, bounds⟩ := course.returned_bounds
  obtain ⟨ascendingToo, boundsToo⟩ := courseToo.returned_bounds
  rw [corresponds] at ascendingToo boundsToo
  have moved : ∀ h ∈ returned dealings, (h.renumber d.tag ρ).index = ρ h.index := by
    intro h member
    rw [StateId.renumber_of_owner (bounds h member).1]
  rintro i (old | ⟨g, member, rfl⟩) j (oldToo | ⟨h, memberToo, rfl⟩) less
  · rwa [kept i old, kept j oldToo]
  · have above := (boundsToo _ (List.mem_map_of_mem memberToo)).2.1
    rw [moved h memberToo] at above
    rw [kept i old]
    omega
  · have above := (bounds g member).2.1
    omega
  · rw [← moved g member, ← moved h memberToo]
    rw [List.pairwise_map, List.pairwise_iff_getElem] at ascendingToo
    rw [List.pairwise_iff_getElem] at ascending
    obtain ⟨rank, inside, rfl⟩ := List.mem_iff_getElem.mp member
    obtain ⟨rankToo, insideToo, rfl⟩ := List.mem_iff_getElem.mp memberToo
    obtain first | rfl | second := Nat.lt_trichotomy rank rankToo
    · exact ascendingToo rank rankToo inside insideToo first
    · omega
    · have more := ascending rankToo rank insideToo inside second
      omega

/-- An edit that succeeds makes known the handle that it returns, if it returns one. -/
theorem among_knownIndices_cons (course : Course d base (⟨e, .ok reply⟩ :: dealings) now next)
    (h : StateId) : h.Among d.tag (knownIndices base (⟨e, .ok reply⟩ :: dealings)) ↔
      h.Among d.tag (knownIndices base dealings) ∨ reply = .issued h := by
  have bounds := course.returned_bounds.2
  have member_iff : ∀ g, g ∈ returned (⟨e, .ok reply⟩ :: dealings) ↔
      g ∈ returned dealings ∨ reply = .issued g := by
    intro g
    rw [returned_cons, List.mem_append]
    cases reply <;> simp [Dealing.issued?, Reply.issued?, eq_comm]
  constructor
  · intro among
    by_cases own : h.owner = d.tag
    · obtain old | ⟨g, member, same⟩ := among own
      · exact .inl fun _ => .inl old
      · obtain earlier | last := (member_iff g).mp member
        · exact .inl fun _ => .inr ⟨g, earlier, same⟩
        · exact .inr (StateId.ext ((bounds g member).1.trans own.symm) same ▸ last)
    · exact .inl fun same => absurd same own
  · rintro (among | last) own
    · obtain old | ⟨g, member, same⟩ := among own
      · exact .inl old
      · exact .inr ⟨g, (member_iff g).mpr (.inl member), same⟩
    · exact .inr ⟨h, (member_iff h).mpr (.inr last), rfl⟩

/-- When the courses part, all handles that the automaton can know of are still the same. -/
theorem renumbered_start (settled : d.Settled base) (kept : ∀ i < base, ρ i = i) :
    Automaton.Renumbered (·.renumber d.tag ρ) (·.Among d.tag (knownIndices base [])) d d := by
  have coherent := settled.coherent
  have live : ∀ h, d.contains h = true → h.index < base := by
    intro h live
    obtain ⟨q, live⟩ := Automaton.contains_iff.mp live
    exact Nat.lt_of_lt_of_le (Automaton.index_lt_of_find? live) settled.room
  have same : ∀ h : StateId, h.index < base → h.renumber d.tag ρ = h :=
    fun h old => StateId.renumber_eq_self kept fun _ => old
  exact {
    renumbering := renumbering_of_strictMonoOn (Course.start.strictMonoOn (d := d) .start kept rfl)
    coherent := coherent
    coherentToo := coherent
    tag := rfl
    alphabet := rfl
    live_known := fun held _ => .inl (live _ held)
    edge_known := fun edge _ => .inl (settled.target_lt edge)
    reads := by
      intro h among
      rw [StateId.renumber_eq_self kept fun own => by simpa [knownIndices, returned] using among own]
      cases live : d.find? h with
      | none => rfl
      | some q =>
        have targets : ∀ s, ∀ target ∈ q.on s, target.renumber d.tag ρ = target := fun s target leads =>
          same target (settled.target_lt ((Automaton.transition?_eq live s).trans leads))
        rw [Option.map_some, State.relabel_eq_self targets]
    onto := fun {g} held => ⟨g, fun _ => .inl (live g held), same g (live g held)⟩
    initial := by
      cases initial : d.initial with
      | none => rfl
      | some h => rw [Option.map_some, same h (live h (coherent.initial_live initial))]
    finals := by
      have fixed : ∀ h ∈ d.finals, h.renumber d.tag ρ = h :=
        fun h final => same h (live h (coherent.finals_live final))
      rw [List.map_congr_left fixed, List.map_id'] }

theorem renumber_of_matched (course : Course d base dealings now next)
    (courseToo : Course d base dealings' now' next') (kept : ∀ i < base, ρ i = i)
    (ranked : Ranked ρ dealings dealings') (matched : Matched d.tag base dealings dealings' h g) :
    h.renumber d.tag ρ = g := by
  cases matched with
  | early old => exact StateId.renumber_eq_self kept old
  | late rank first second =>
    have own := (course.returned_bounds.2 h (List.mem_of_getElem? first)).1
    have ownToo := (courseToo.returned_bounds.2 g (List.mem_of_getElem? second)).1
    rw [StateId.renumber_of_owner own, ranked rank h g first second]
    exact StateId.ext ownToo.symm rfl

/-- One edit further, where it succeeds in both courses. A handle that it returns is the last of those
returned in either course. -/
theorem edited_in_step (course : Course d base (⟨e, .ok reply⟩ :: dealings) now next)
    (courseToo : Course d base (⟨e.relabel (·.renumber d.tag ρ), .ok reply'⟩ ::
      dealings.map (·.relabel (·.renumber d.tag ρ))) now' next')
    (kept : ∀ i < base, ρ i = i) (ranked : Ranked ρ (⟨e, .ok reply⟩ :: dealings)
      (⟨e.relabel (·.renumber d.tag ρ), .ok reply'⟩ :: dealings.map (·.relabel (·.renumber d.tag ρ))))
    (renumbered : Automaton.Renumbered (·.renumber d.tag ρ)
      (·.Among d.tag (knownIndices base dealings)) last last')
    (named : ∀ h ∈ e.handles, h.Among d.tag (knownIndices base dealings))
    (edited : last.Edited supply e now reply)
    (edited' : last'.Edited supply' (e.relabel (·.renumber d.tag ρ)) now' reply')
    (room : last.arena.size ≤ supply) (room' : last'.arena.size ≤ supply') :
    reply' = reply.relabel (·.renumber d.tag ρ) ∧ Automaton.Renumbered (·.renumber d.tag ρ)
      (·.Among d.tag (knownIndices base (⟨e, .ok reply⟩ :: dealings))) now now' := by
  have fresh : ∀ h, reply = .issued h → reply' = .issued (h.renumber d.tag ρ) := by
    rintro h rfl
    obtain ⟨g, rfl⟩ := edited.issues_too edited'
    have first := getElem?_returned_add e h dealings
    have second := getElem?_returned_add (e.relabel (·.renumber d.tag ρ)) g
      (dealings.map (·.relabel (·.renumber d.tag ρ)))
    rw [returned_relabel, List.length_map] at second
    rw [course.renumber_of_matched courseToo kept ranked (.late _ first second)]
  have increasing : reply' = reply.relabel (·.renumber d.tag ρ) →
      StrictMonoOn ρ (knownIndices base (⟨e, .ok reply⟩ :: dealings)) := fun same =>
    course.strictMonoOn courseToo kept (same ▸ returned_relabel _ (⟨e, .ok reply⟩ :: dealings))
  exact renumbered.edited named edited edited' room room' fresh (among_knownIndices_cons course)
    fun same => renumbering_of_strictMonoOn (increasing same)

/-- Automata that take their courses in step go on differing in their indices alone, and the dealings
of one are those of the other renumbered. -/
theorem in_step (same : InStep d.tag base dealings dealings')
    (course : Course d base dealings now next) (courseToo : Course d base dealings' now' next')
    (settled : d.Settled base) (kept : ∀ i < base, ρ i = i) (ranked : Ranked ρ dealings dealings')
    (exhausted : ExhaustedAlike dealings dealings') :
    dealings' = dealings.map (·.relabel (·.renumber d.tag ρ)) ∧
      Automaton.Renumbered (·.renumber d.tag ρ) (·.Among d.tag (knownIndices base dealings)) now now' := by
  induction same generalizing now next now' next' with
  | nil =>
    rw [course.eq_start, courseToo.eq_start]
    exact ⟨rfl, renumbered_start settled kept⟩
  | @cons dealings dealings' e answer answer' earlier f matched ih =>
    obtain ⟨before, supply, courseBefore, answered⟩ := course.newest
    obtain ⟨before', supply', courseBefore', answered'⟩ := courseToo.newest
    obtain ⟨alike, exhausted⟩ := List.forall₂_cons.mp exhausted
    have rankedBefore := ranked.of_suffix (List.suffix_cons _ _) (List.suffix_cons _ _)
    obtain ⟨rfl, renumbered⟩ := ih courseBefore courseBefore' rankedBefore exhausted
    have handles : ∀ h ∈ e.handles, h.renumber d.tag ρ = f h := fun h asked =>
      courseBefore.renumber_of_matched courseBefore' kept rankedBefore (matched h asked)
    have named := fun h asked => (matched h asked).among
    rw [← Edit.relabel_congr handles] at answered' courseToo ranked ⊢
    obtain ⟨cause, rfl, rfl, rfl, rfl⟩ | ⟨reply, reply', rfl, rfl, edited, edited'⟩ :=
      renumbered.answered named answered answered' alike
    · refine ⟨rfl, ?_⟩
      rwa [show knownIndices base (⟨e, .error cause⟩ :: dealings) = knownIndices base dealings by
        simp [knownIndices, returned_cons, Dealing.issued?]]
    · have room := (courseBefore.sound settled.coherent settled.room).2
      have room' := (courseBefore'.sound settled.coherent settled.room).2
      obtain ⟨rfl, done⟩ := course.edited_in_step courseToo kept ranked renumbered named edited edited'
        room room'
      exact ⟨rfl, done⟩

end Course
end BinaryAutomata
