import BinaryAutomata.Proofs.Handles
import BinaryAutomata.Proofs.Search

/-! Edges, told from what was done alone. A slot holds what was last written to it, and nothing but
a write to that slot changes it. A target was live when it was written; once it has been removed the
edge dangles, in the automaton and in all that are cloned from it, until the slot is written again. -/
namespace BinaryAutomata

def Draft.on (draft : Draft) : Symbol → Option StateId
  | .a => draft.onA
  | .b => draft.onB

/-- What the deed wrote to the slot of `h` on `s`. A new state brings its edges with it. -/
inductive Deed.Writes (h : StateId) (s : Symbol) : Deed → Option StateId → Prop where
  | add : Writes h s ⟨.add draft, .issued h⟩ (draft.on s)
  | connect : Writes h s ⟨.connect h s target, .done⟩ (some target)
  | disconnect : Writes h s ⟨.disconnect h s, .done⟩ none

/-- The history has written `value` to the slot of `h` on `s`, and nothing else since. -/
def LastWritten (history : List Deed) (h : StateId) (s : Symbol) (value : Option StateId) : Prop :=
  Since history (fun deed => deed.Writes h s value) fun other => ∃ value, other.Writes h s value

theorem Deed.Writes.unique {deed : Deed} (writes : deed.Writes h s value)
    (writesToo : deed.Writes h s value') : value = value' := by
  cases writes <;> cases writesToo <;> rfl

namespace Automaton

variable {d : Automaton}

theorem transition?_insertState (own : h.owner = d.tag) (room : d.arena.size ≤ h.index)
    (draft : Draft) (g : StateId) (s : Symbol) : (d.insertState h draft).transition? g s =
      if g = h then draft.on s else d.transition? g s := by
  rw [transition?, find?_insertState own room]
  split
  · cases s <;> rfl
  · rfl

theorem transition?_eraseState (live : d.find? h = some q) (other : g ≠ h) (s : Symbol) :
    (d.eraseState h q).transition? g s = d.transition? g s := by
  rw [transition?, find?_eraseState (owner_of_find? live), if_neg other, transition?]

theorem transition?_renameState (live : d.find? h = some q) (name : String) (g : StateId)
    (s : Symbol) : (d.renameState h q name).transition? g s = d.transition? g s := by
  rw [transition?, find?_renameState live]
  split
  · subst g
    rw [transition?_eq live]
    cases s <;> rfl
  · rfl

theorem transition?_redirectState (live : d.find? h = some q) (t : Symbol)
    (target : Option StateId) (g : StateId) (s : Symbol) :
    (d.redirectState h q t target).transition? g s =
      if g = h ∧ s = t then target else d.transition? g s := by
  rw [transition?, find?_redirectState live]
  by_cases own : g = h
  · subst g
    simp [State.on_redirect, transition?_eq live]
  · simp [own, transition?]

/-- An edit that succeeds writes the slot of a live state or leaves it as it was. -/
theorem Edited.writes_or_keeps (edited : Edited d next e d' reply) (coherent : d.Coherent)
    (room : d.arena.size ≤ next) (live : d'.contains h = true) (s : Symbol) :
    Deed.Writes h s ⟨e, reply⟩ (d'.transition? h s) ∨
      ((¬ ∃ value, Deed.Writes h s ⟨e, reply⟩ value) ∧ d.contains h = true ∧
        d'.transition? h s = d.transition? h s) := by
  have before := (edited.contains_iff coherent room h).mp live
  cases edited with
  | @add draft =>
    have slot := transition?_insertState (d := d) (h := ⟨d.tag, next⟩) rfl room draft h s
    by_cases own : h = ⟨d.tag, next⟩
    · subst h
      left
      rw [show (d.added _ draft).transition? _ s = draft.on s from slot.trans (if_pos rfl)]
      exact .add
    · right
      refine ⟨?_, ?_, slot.trans (if_neg own)⟩
      · rintro ⟨_, ⟨⟩⟩
        exact own rfl
      · simpa [Ne.symm own] using before
  | @remove g q held =>
    obtain ⟨live, spared⟩ : d.contains h = true ∧ g ≠ h := by simpa using before
    exact .inr ⟨by rintro ⟨_, ⟨⟩⟩, live, transition?_eraseState held (Ne.symm spared) s⟩
  | rename held =>
    exact .inr ⟨by rintro ⟨_, ⟨⟩⟩, by simpa using before, transition?_renameState held _ h s⟩
  | @connect g q target t held | @disconnect g q t held =>
    rw [transition?_redirectState held]
    split
    · rename_i own
      obtain ⟨rfl, rfl⟩ := own
      exact .inl (by constructor)
    · rename_i other
      refine .inr ⟨?_, by simpa using before, rfl⟩
      rintro ⟨_, ⟨⟩⟩
      exact other ⟨rfl, rfl⟩
  | removeUnknown | setInitial | setFinal => exact .inr ⟨by rintro ⟨_, ⟨⟩⟩, live, rfl⟩

end Automaton

namespace Lineage

theorem last_written (lineage : Lineage d history next) (live : d.contains h = true) (s : Symbol) :
    LastWritten history h s (d.transition? h s) := by
  induction lineage with
  | empty => simp [Automaton.contains] at live
  | waited before passed ih => exact ih live
  | edited before edited ih =>
    obtain ⟨coherent, room⟩ := before.sound
    obtain written | ⟨spared, earlier, same⟩ := edited.writes_or_keeps coherent room live s
    · exact since_cons.mpr (.inl written)
    · exact since_cons.mpr (.inr ⟨same ▸ ih earlier, spared⟩)

theorem transition?_eq_iff (lineage : Lineage d history next) (live : d.contains h = true)
    (s : Symbol) (value : Option StateId) :
    d.transition? h s = value ↔ LastWritten history h s value := by
  have last := lineage.last_written live s
  constructor
  · rintro rfl
    exact last
  · intro written
    exact Since.unique (Deed.Writes h s) Deed.Writes.unique last written

theorem target_kept (lineage : Lineage d (later ++ deed :: earlier) next)
    (writes : deed.Writes h s (some target)) : Kept earlier target := by
  obtain ⟨before, supply, after, origin, edited⟩ := lineage.performed
  rw [← origin.contains_iff_kept]
  -- What an add writes is whatever its draft asks for, so the value is left open for the cases.
  generalize written : some target = value at writes
  cases writes with
  | add =>
    cases edited with
    | add _ _ onA onB _ =>
      cases s with
      | a => exact onA target written.symm
      | b => exact onB target written.symm
  | connect =>
    cases written
    cases edited with
    | connect _ ends => exact ends
  | disconnect => contradiction

/-- The target of an edge is gone only if it was removed. -/
theorem target_absent_iff (lineage : Lineage d history next) (live : d.contains h = true)
    (edge : d.transition? h s = some target) :
    d.contains target = false ↔ ⟨.remove target, .outcome .applied⟩ ∈ history := by
  refine ⟨?_, lineage.absent_of_removed⟩
  contrapose
  intro spared
  obtain ⟨later, deed, earlier, rfl, writes, _⟩ := (lineage.transition?_eq_iff live s _).mp edge
  -- The write comes after the moment at which its target is known to be kept.
  rw [List.append_cons] at spared
  have kept := (lineage.target_kept writes).append
    fun removed => spared (List.mem_append_left earlier removed)
  rw [← List.append_cons] at kept
  simp [(lineage.contains_iff_kept target).mpr kept]

end Lineage

namespace Automaton

/-- The edge points at a state that is gone. Evaluation stops at it with an error, it is among the
holes, and the search does not go along it. -/
structure Dangles (d : Automaton) (h : StateId) (s : Symbol) (target : StateId) : Prop where
  edge : d.transition? h s = some target
  gone : d.contains target = false
  stops {before after : List Symbol} {visited : List StateId} : d.Walks before visited h →
    (d.evaluateSymbols (before ++ s :: after)).result =
      .error (.missingTransition (d.nameOf h) (d.alphabet.charOf s))
  listed : (h, s) ∈ d.holes
  unfollowed : target ∉ d.successors h
  unreached : d.reachable.contains target = false

theorem Coherent.dangles {d : Automaton} (coherent : d.Coherent) (live : d.contains h = true)
    (edge : d.transition? h s = some target) (gone : d.contains target = false) :
    d.Dangles h s target := by
  have hole : d.Hole h s := by
    intro other same
    exact Option.some.inj (edge.symm.trans same) ▸ gone
  exact {
    edge
    gone
    stops := by
      intro before after visited walks
      obtain ⟨q, live⟩ := contains_iff.mp live
      rw [nameOf_eq live]
      exact evaluateSymbols_of_hole walks live hole after
    listed := mem_holes.mpr ⟨live, hole⟩
    unfollowed := by
      intro followed
      obtain ⟨_, _, ends⟩ := mem_successors.mp followed
      simp [gone] at ends
    unreached := by
      rw [Bool.eq_false_iff]
      intro marked
      simp [(coherent.mem_reachable_iff.mp marked).live] at gone }

end Automaton

namespace Session

/-- Only a write to the slot of a live state changes it: no other edit of the automaton does, and
nothing that is done to another automaton. -/
theorem Performed.writes_or_keeps {session : Session} (run : Run .empty record session)
    (performed : Performed session op next result) (held : session.automaton? number = some d)
    (heldAfter : next.automaton? number = some d') (live : d'.contains h = true) (s : Symbol) :
    d'.transition? h s = d.transition? h s ∨ ∃ e reply, op = .edit number e ∧ result = .ok reply ∧
      Deed.Writes h s ⟨e, reply⟩ (d'.transition? h s) := by
  obtain ⟨member, found, rfl⟩ := Option.map_eq_some_iff.mp held
  obtain ⟨coherent, room⟩ := (run.lineage found).2.sound
  obtain kept | ⟨e, d, reply, rfl, rfl, edited, kept⟩ := performed.keeps found
  · left
    simp only [automaton?, kept, Option.map_some, Option.some.injEq] at heldAfter
    rw [heldAfter]
  · simp only [automaton?, kept, Option.map_some, Option.some.injEq] at heldAfter
    subst heldAfter
    obtain writes | ⟨_, _, same⟩ := edited.writes_or_keeps coherent room live s
    · exact .inr ⟨e, reply, rfl, rfl, writes⟩
    · exact .inl same

/-- An edge that has lost its target stays lost, in the automaton and in those cloned from it, until
its slot is written. -/
theorem Run.stays_dangling (run : Run .empty record session)
    (held : session.automaton? number = some d) (live : d.contains h = true)
    (edge : d.transition? h s = some target) (gone : d.contains target = false)
    (longer : Run session later final) (stems : ancestor? later other = some number)
    (heldAfter : final.automaton? other = some d') (liveAfter : d'.contains h = true)
    (unwritten : ∀ deed ∈ history later other, ¬ ∃ value, deed.Writes h s value) :
    d'.Dangles h s target := by
  obtain ⟨_, lineage⟩ := run.comes_about held
  obtain ⟨_, lineageAfter⟩ := (run.trans longer).comes_about heldAfter
  have past : history (later ++ record) other = history later other ++ history record number := by
    simp [history_append, stems]
  rw [past] at lineageAfter
  have written := ((lineage.transition?_eq_iff live s _).mp edge).append unwritten
  have removed := (lineage.target_absent_iff live edge).mp gone
  exact lineageAfter.sound.1.dangles liveAfter
    ((lineageAfter.transition?_eq_iff liveAfter s _).mpr written)
    (lineageAfter.absent_of_removed (List.mem_append_right _ removed))

/-- Over any run, with clones taken at any moment: a slot holds what its history wrote to it last,
and only a write to it changes it. Its target was live when it was written and is gone only if it
was removed; from then on the edge dangles, in the automaton and in every clone, until the slot is
written again. -/
theorem edges_follow_history (run : Run .empty record session)
    (held : session.automaton? number = some d) (live : d.contains h = true) (s : Symbol) :
    (∀ value, d.transition? h s = value ↔ LastWritten (history record number) h s value) ∧
    (∀ op next report d', session.perform? op = some (next, report) →
      next.automaton? number = some d' → d'.contains h = true →
      d'.transition? h s = d.transition? h s ∨ ∃ e reply, op = .edit number e ∧
        report.result = .ok reply ∧ Deed.Writes h s ⟨e, reply⟩ (d'.transition? h s)) ∧
    (∀ later deed earlier target, history record number = later ++ deed :: earlier →
      deed.Writes h s (some target) → Kept earlier target) ∧
    (∀ target, d.transition? h s = some target →
      (d.contains target = false ↔
        ⟨.remove target, .outcome .applied⟩ ∈ history record number) ∧
      (d.contains target = false → ∀ later final, Run session later final →
        ancestor? later number = some number ∧
        ∀ other d', ancestor? later other = some number → final.automaton? other = some d' →
          d'.contains h = true →
          (∀ deed ∈ history later other, ¬ ∃ value, deed.Writes h s value) →
          d'.Dangles h s target)) := by
  obtain ⟨_, lineage⟩ := run.comes_about held
  refine ⟨lineage.transition?_eq_iff live s, ?_, ?_, ?_⟩
  · intro op next report d' performed heldAfter liveAfter
    exact (performed_of_perform? performed).writes_or_keeps run held heldAfter liveAfter s
  · intro later deed earlier target split writes
    rw [split] at lineage
    exact lineage.target_kept writes
  · intro target edge
    refine ⟨lineage.target_absent_iff live edge, ?_⟩
    intro gone later final longer
    obtain ⟨member, found, rfl⟩ := Option.map_eq_some_iff.mp held
    have inside : number < session.members.size := (Array.getElem?_eq_some_iff.mp found).1
    refine ⟨(longer.ancestor?_eq_self inside).2, ?_⟩
    intro other d' stems heldAfter liveAfter unwritten
    exact run.stays_dangling held live edge gone longer stems heldAfter liveAfter unwritten

/-- A session whose state `q` was removed, and `p` has kept the edge to it. -/
def severed : Session where
  members := #[⟨0, 0, .standard, ⟨#[some ⟨"p", none, some ⟨0, 1⟩⟩, none]⟩, ⟨[("p", ⟨0, 0⟩)]⟩,
    none, []⟩]
  supplies := #[2]

/-- The edge dangles in a clone that is taken later, although a new state has got the name `q`. -/
theorem severed_edge_dangles : ∃ record later final d', Run .empty record severed ∧
    (∃ d, severed.automaton? 0 = some d ∧ d.contains ⟨0, 0⟩ = true ∧
      LastWritten (history record 0) ⟨0, 0⟩ .b (some ⟨0, 1⟩)) ∧
    Run severed later final ∧ ancestor? later 1 = some 0 ∧ final.automaton? 1 = some d' ∧
    d'.stateNamed? "q" = some ⟨0, 2⟩ ∧ d'.Dangles ⟨0, 0⟩ .b ⟨0, 1⟩ := by
  have run : Run .empty
      [⟨.edit 0 (.remove ⟨0, 1⟩), ⟨[.removedState "q" ⟨0, 1⟩], .ok (.outcome .applied)⟩⟩,
        ⟨.edit 0 (.connect ⟨0, 0⟩ .b ⟨0, 1⟩), ⟨[.connected ⟨0, 0⟩ .b ⟨0, 1⟩], .ok .done⟩⟩,
        ⟨.edit 0 (.add ⟨"q", none, none, false, false⟩),
          ⟨[.addedState "q" ⟨0, 1⟩], .ok (.issued ⟨0, 1⟩)⟩⟩,
        ⟨.edit 0 (.add ⟨"p", none, none, false, false⟩),
          ⟨[.addedState "p" ⟨0, 0⟩], .ok (.issued ⟨0, 0⟩)⟩⟩,
        ⟨.found .standard, ⟨[], .ok (.created 0)⟩⟩] severed :=
    .perform (.perform (.perform (.perform (.perform (.refl .empty) rfl) rfl) rfl) rfl) rfl
  have longer : Run severed
      [⟨.clone 0, ⟨[], .ok (.created 1)⟩⟩,
        ⟨.edit 0 (.add ⟨"q", none, none, false, false⟩),
          ⟨[.addedState "q" ⟨0, 2⟩], .ok (.issued ⟨0, 2⟩)⟩⟩] _ :=
    .perform (.perform (.refl severed) rfl) rfl
  obtain ⟨written, _, _, dangling⟩ := edges_follow_history run
    (show severed.automaton? 0 = some _ from rfl)
    (show Automaton.contains _ ⟨0, 0⟩ = true from rfl) .b
  refine ⟨_, _, _, _, run, ⟨_, rfl, rfl, (written _).mp rfl⟩, longer, rfl, rfl, rfl,
    ((dangling _ rfl).2 rfl _ _ longer).2 1 _ rfl rfl rfl ?_⟩
  rintro deed member ⟨_, writes⟩
  cases List.mem_singleton.mp member
  cases writes

end Session
end BinaryAutomata
