import BinaryAutomata.Proofs.Handles
import BinaryAutomata.Proofs.Refusal
import BinaryAutomata.Proofs.Relabelling

/-! Edits of automata that differ in their indices alone. The same edit, with its handles relabelled,
is refused in either for the same cause or succeeds in both, and then they differ in their indices
alone as before. All that can come between them is a supply of indices that is exhausted. -/
namespace BinaryAutomata

section
variable (f : StateId → StateId)

def Draft.relabel (draft : Draft) : Draft :=
  { draft with onA := draft.onA.map f, onB := draft.onB.map f }

def Edit.relabel : Edit → Edit
  | .add draft => .add (draft.relabel f)
  | .remove h => .remove (f h)
  | .rename h name => .rename (f h) name
  | .connect source s target => .connect (f source) s (f target)
  | .disconnect source s => .disconnect (f source) s
  | .setInitial h => .setInitial (f h)
  | .setFinal h => .setFinal (f h)

def Reply.relabel : Reply → Reply
  | .issued h => .issued (f h)
  | reply => reply

def Error.relabel : Error → Error
  | .stateNotFound h => .stateNotFound (f h)
  | error => error

end

/-- The handles that an edit names. -/
@[simp] def Edit.handles : Edit → List StateId
  | .add draft => draft.onA.toList ++ draft.onB.toList
  | .connect source _ target => [source, target]
  | .remove h | .rename h _ | .disconnect h _ | .setInitial h | .setFinal h => [h]

theorem Edit.forall_handles_add {draft : Draft} {P : StateId → Prop} :
    (∀ h ∈ (Edit.add draft).handles, P h) ↔ (∀ h ∈ draft.onA, P h) ∧ ∀ h ∈ draft.onB, P h := by
  simp [or_imp, forall_and]

theorem Edit.relabel_congr {f g : StateId → StateId} {e : Edit} (same : ∀ h ∈ e.handles, f h = g h) :
    e.relabel f = e.relabel g := by
  cases e with
  | add draft =>
    obtain ⟨onA, onB⟩ := Edit.forall_handles_add.mp same
    simp only [Edit.relabel, Draft.relabel, Option.map_congr onA, Option.map_congr onB]
  | _ => simp_all [Edit.relabel]

namespace Automaton

variable {f : StateId → StateId} {known wider : StateId → Prop} {d d' d₁ d₁' : Automaton}

theorem Edited.issues_too (edited : d.Edited next e d₁ (.issued h))
    (editedToo : d'.Edited next' (e.relabel f) d₁' reply') : ∃ g, reply' = .issued g := by
  cases edited
  cases editedToo
  exact ⟨_, rfl⟩

namespace Renumbered

theorem exempt_iff (renumbered : Renumbered f known d d') (named : ∀ h ∈ exempt, known h)
    (listed : v ∈ d.states) : exempt.map f = some (v.relabel f).id ↔ exempt = some v.id := by
  have live := renumbered.live_known (mem_state_ids.mp (List.mem_map_of_mem listed))
  cases exempt with
  | none => simp
  | some h => simp [StateView.relabel, renumbered.renumbering.eq_iff (named h rfl) live]

theorem nameFree (renumbered : Renumbered f known d d') (named : ∀ h ∈ exempt, known h)
    (free : d.NameFree exempt name) : d'.NameFree (exempt.map f) name := by
  refine ⟨free.1, ?_⟩
  rw [renumbered.states, List.forall_mem_map]
  intro v listed holds
  exact (renumbered.exempt_iff named listed).mpr (free.2 v listed holds)

theorem nameRefused (renumbered : Renumbered f known d d') (named : ∀ h ∈ exempt, known h)
    (refused : d.NameRefused exempt name cause) :
    d'.NameRefused (exempt.map f) name (cause.relabel f) := by
  cases refused with
  | empty => exact .empty
  | @taken _ v text listed holds other =>
    have listedToo : v.relabel f ∈ d'.states := renumbered.states ▸ List.mem_map.mpr ⟨v, listed, rfl⟩
    refine .taken text listedToo holds ?_
    exact fun same => other ((renumbered.exempt_iff named listed).mp same)

theorem targets_live {target : Option StateId} (renumbered : Renumbered f known d d')
    (named : ∀ h ∈ target, known h) (live : ∀ h ∈ target, d.contains h = true) :
    ∀ g ∈ target.map f, d'.contains g = true := by
  intro g member
  obtain ⟨h, asked, rfl⟩ := Option.map_eq_some_iff.mp member
  exact renumbered.contains_too (named h asked) (live h asked)

/-- An edit that one refuses, and not for want of an index, the other refuses for the same cause. -/
theorem refused (renumbered : Renumbered f known d d') (named : ∀ h ∈ e.handles, known h)
    (refused : d.Refused next e cause) (other : cause ≠ .tooManyStates) (next' : Nat) :
    d'.Refused next' (e.relabel f) (cause.relabel f) := by
  cases refused with
  | addName refused => exact .addName (renumbered.nameRefused (by simp) refused)
  | addOnA free onA gone =>
    obtain ⟨namedA, _⟩ := Edit.forall_handles_add.mp named
    exact .addOnA (renumbered.nameFree (by simp) free) (by simp [Draft.relabel, onA])
      (renumbered.contains_too (namedA _ onA) gone)
  | addOnB free liveA onB gone =>
    obtain ⟨namedA, namedB⟩ := Edit.forall_handles_add.mp named
    exact .addOnB (renumbered.nameFree (by simp) free) (renumbered.targets_live namedA liveA)
      (by simp [Draft.relabel, onB]) (renumbered.contains_too (namedB _ onB) gone)
  | addExhausted => exact absurd rfl other
  | renameDead gone => exact .renameDead (renumbered.contains_too (named _ (by simp)) gone)
  | @renameName h name cause holds refused =>
    have own : known h := named _ (by simp)
    exact .renameName (renumbered.contains_too own holds)
      (renumbered.nameRefused (by simpa using own) refused)
  | connectTarget gone => exact .connectTarget (renumbered.contains_too (named _ (by simp)) gone)
  | connectSource holds gone =>
    exact .connectSource (renumbered.contains_too (named _ (by simp)) holds)
      (renumbered.contains_too (named _ (by simp)) gone)
  | disconnect gone => exact .disconnect (renumbered.contains_too (named _ (by simp)) gone)
  | setInitial gone => exact .setInitial (renumbered.contains_too (named _ (by simp)) gone)
  | setFinal gone => exact .setFinal (renumbered.contains_too (named _ (by simp)) gone)

theorem freeName (renumbered : Renumbered f known d d') (free : d.names.find? name = none) :
    d'.names.find? name = none := by
  have same := renumbered.stateNamed? name
  rwa [Automaton.stateNamed?, Automaton.stateNamed?, free] at same

/-- An edit that succeeds in one succeeds in the other, if the other has an index left for it. -/
theorem succeeds (renumbered : Renumbered f known d d') (named : ∀ h ∈ e.handles, known h)
    (edited : d.Edited next e d₁ reply) (next' : Nat) :
    d'.Refused next' (e.relabel f) .tooManyStates ∨
      ∃ d₁' reply', d'.Edited next' (e.relabel f) d₁' reply' := by
  cases edited with
  | @add draft text free onA onB _ =>
    obtain ⟨namedA, namedB⟩ := Edit.forall_handles_add.mp named
    have onA := renumbered.targets_live namedA onA
    have onB := renumbered.targets_live namedB onB
    by_cases supplied : next' < supplyLimit
    · exact .inr ⟨_, _, .add text (renumbered.freeName free) onA onB supplied⟩
    · have free : d'.NameFree none draft.name :=
        ⟨text, fun v listed holds =>
          absurd holds (renumbered.coherentToo.free_iff.mp (renumbered.freeName free) v listed)⟩
      exact .inl (.addExhausted free onA onB (Nat.not_lt.mp supplied))
  | remove live => exact .inr ⟨_, _, .remove (renumbered.find?_of_live live)⟩
  | @removeUnknown h dead =>
    have unheld := renumbered.reads (named h (by simp))
    exact .inr ⟨_, _, .removeUnknown (by rw [unheld, dead, Option.map_none])⟩
  | @rename h q name live text free =>
    refine .inr ⟨_, _, .rename (renumbered.find?_of_live live) text fun holder held => ?_⟩
    have same := renumbered.stateNamed? name
    rw [Automaton.stateNamed?, held, eq_comm, Option.map_eq_some_iff] at same
    obtain ⟨g, heldToo, rfl⟩ := same
    rw [free g heldToo]
  | connect source ends =>
    exact .inr ⟨_, _, .connect (renumbered.find?_of_live source)
      (renumbered.contains_too (named _ (by simp)) ends)⟩
  | disconnect source => exact .inr ⟨_, _, .disconnect (renumbered.find?_of_live source)⟩
  | setInitial holds =>
    exact .inr ⟨_, _, .setInitial (renumbered.contains_too (named _ (by simp)) holds)⟩
  | setFinal holds => exact .inr ⟨_, _, .setFinal (renumbered.contains_too (named _ (by simp)) holds)⟩

/-- Handles that are live in neither automaton may be counted among the known ones. -/
theorem widen (renumbered : Renumbered f known d d') (renumbering : Renumbering f wider)
    (old : ∀ {h}, known h → wider h)
    (new : ∀ {h}, wider h → known h ∨ d.find? h = none ∧ d'.find? (f h) = none) :
    Renumbered f wider d d' where
  renumbering := renumbering
  coherent := renumbered.coherent
  coherentToo := renumbered.coherentToo
  tag := renumbered.tag
  alphabet := renumbered.alphabet
  live_known live := old (renumbered.live_known live)
  edge_known edge := old (renumbered.edge_known edge)
  reads {h} named := by
    obtain known | ⟨unheld, unheldToo⟩ := new named
    · exact renumbered.reads known
    · rw [unheld, unheldToo, Option.map_none]
  onto live := by
    obtain ⟨h, known, same⟩ := renumbered.onto live
    exact ⟨h, old known, same⟩
  initial := renumbered.initial
  finals := renumbered.finals

/-- Writing a state to a slot in one, and the same state relabelled to its slot in the other. -/
theorem rewritten (renumbered : Renumbered f known d d') (named : known h)
    (rewritten : d.Rewritten h slot d₁) (rewrittenToo : d'.Rewritten (f h) (slot.map (·.relabel f)) d₁')
    (ends : ∀ q ∈ slot, ∀ s, ∀ target ∈ q.on s, known target)
    (coherent : d₁.Coherent) (coherentToo : d₁'.Coherent) (tag : d₁'.tag = d₁.tag)
    (alphabet : d₁'.alphabet = d₁.alphabet) (initial : d₁'.initial = d₁.initial.map f)
    (finals : d₁'.finals = d₁.finals.map f) : Renumbered f known d₁ d₁' where
  renumbering := renumbered.renumbering
  coherent := coherent
  coherentToo := coherentToo
  tag := tag
  alphabet := alphabet
  live_known {g} live := by
    by_cases own : g = h
    · exact own ▸ named
    · rw [Automaton.contains, rewritten.reads, if_neg own] at live
      exact renumbered.live_known live
  edge_known {g target s} edge := by
    rw [Automaton.transition?, rewritten.reads] at edge
    split at edge
    · obtain ⟨q, inSlot, leads⟩ := Option.bind_eq_some_iff.mp edge
      exact ends q inSlot s target leads
    · exact renumbered.edge_known edge
  reads {g} known := by
    rw [rewrittenToo.reads, rewritten.reads]
    simp only [renumbered.renumbering.eq_iff known named]
    split
    · rfl
    · exact renumbered.reads known
  onto {g} live := by
    by_cases own : g = f h
    · exact ⟨h, named, own.symm⟩
    · rw [Automaton.contains, rewrittenToo.reads, if_neg own] at live
      exact renumbered.onto live
  initial := initial
  finals := finals

theorem withRoles (renumbered : Renumbered f known d d') (live : d.contains h = true)
    (isInitial isFinal : Bool) :
    Renumbered f known (d.withRoles h isInitial isFinal) (d'.withRoles (f h) isInitial isFinal) where
  renumbering := renumbered.renumbering
  coherent := renumbered.coherent.withRoles live isInitial isFinal
  coherentToo := renumbered.coherentToo.withRoles
    (renumbered.contains_too (renumbered.live_known live) live) isInitial isFinal
  tag := renumbered.tag
  alphabet := renumbered.alphabet
  live_known := renumbered.live_known
  edge_known := renumbered.edge_known
  reads := renumbered.reads
  onto := renumbered.onto
  initial := by
    simp only [Automaton.withRoles, renumbered.initial]
    split <;> rfl
  finals := by
    simp only [Automaton.withRoles, renumbered.isFinal (renumbered.live_known live), renumbered.finals]
    split <;> simp

theorem edge_on (renumbered : Renumbered f known d d') (live : d.find? h = some q)
    (leads : target ∈ q.on s) : known target :=
  renumbered.edge_known ((transition?_eq live s).trans leads)

theorem erase_finals (renumbered : Renumbered f known d d') (named : known h) :
    d'.finals.erase (f h) = (d.finals.erase h).map f := by
  have same : ∀ g ∈ d.finals, ((· != f h) ∘ f) g = (g != h) := by
    intro g final
    have live := renumbered.live_known (renumbered.coherent.finals_live final)
    simp [bne, renumbered.renumbering.eq_iff live named]
  rw [renumbered.coherentToo.finals_nodup.erase_eq_filter,
    renumbered.coherent.finals_nodup.erase_eq_filter, renumbered.finals, List.filter_map,
    List.filter_congr same]

theorem eraseState (renumbered : Renumbered f known d d') (live : d.find? h = some q) :
    Renumbered f known (d.eraseState h q) (d'.eraseState (f h) (q.relabel f)) := by
  have liveToo := renumbered.find?_of_live live
  have named := renumbered.live_known (contains_iff.mpr ⟨q, live⟩)
  have initial : d'.initial = some (f h) ↔ d.initial = some h := by
    rw [← isInitial_iff, renumbered.isInitial named, isInitial_iff]
  refine renumbered.rewritten named (rewritten_eraseState live) (rewritten_eraseState liveToo)
    (by simp) (renumbered.coherent.eraseState live) (renumbered.coherentToo.eraseState liveToo)
    renumbered.tag renumbered.alphabet ?_ (renumbered.erase_finals named)
  simp only [Automaton.eraseState, initial]
  split
  · rfl
  · exact renumbered.initial

theorem insertState (renumbered : Renumbered f known d d') (named : known h) (own : h.owner = d.tag)
    (room : d.arena.size ≤ h.index) (roomToo : d'.arena.size ≤ (f h).index) (text : draft.name ≠ "")
    (free : d.names.find? draft.name = none)
    (ends : (∀ g ∈ draft.onA, known g) ∧ ∀ g ∈ draft.onB, known g) :
    Renumbered f known (d.insertState h draft) (d'.insertState (f h) (draft.relabel f)) := by
  have ownToo : (f h).owner = d'.tag := by rw [renumbered.renumbering.owner, own, renumbered.tag]
  refine renumbered.rewritten named (rewritten_insertState own room draft)
    (rewritten_insertState ownToo roomToo (draft.relabel f)) ?_
    (renumbered.coherent.insertState own room text free)
    (renumbered.coherentToo.insertState ownToo roomToo text (renumbered.freeName free))
    renumbered.tag renumbered.alphabet renumbered.initial renumbered.finals
  rintro _ ⟨⟩ s target leads
  cases s with
  | a => exact ends.1 target leads
  | b => exact ends.2 target leads

theorem renameState (renumbered : Renumbered f known d d') (live : d.find? h = some q)
    (coherent : (d.renameState h q name).Coherent)
    (coherentToo : (d'.renameState (f h) (q.relabel f) name).Coherent) :
    Renumbered f known (d.renameState h q name) (d'.renameState (f h) (q.relabel f) name) := by
  have liveToo := renumbered.find?_of_live live
  have named := renumbered.live_known (contains_iff.mpr ⟨q, live⟩)
  refine renumbered.rewritten named (rewritten_renameState live name)
    (rewritten_renameState liveToo name) ?_ coherent coherentToo renumbered.tag renumbered.alphabet
    renumbered.initial renumbered.finals
  rintro _ ⟨⟩ s target leads
  have edge : target ∈ q.on s := by cases s <;> exact leads
  exact renumbered.edge_on live edge

theorem redirectState (renumbered : Renumbered f known d d') (live : d.find? h = some q)
    (s : Symbol) (named : ∀ g ∈ target, known g) :
    Renumbered f known (d.redirectState h q s target)
      (d'.redirectState (f h) (q.relabel f) s (target.map f)) := by
  have liveToo := renumbered.find?_of_live live
  have rewrittenToo := renumbered.coherentToo.rewritten_redirectState liveToo s (target.map f)
  rw [← State.relabel_redirect] at rewrittenToo
  refine renumbered.rewritten (renumbered.live_known (contains_iff.mpr ⟨q, live⟩))
    (renumbered.coherent.rewritten_redirectState live s target) rewrittenToo ?_
    (renumbered.coherent.redirectState live s target)
    (renumbered.coherentToo.redirectState liveToo s (target.map f)) renumbered.tag
    renumbered.alphabet renumbered.initial renumbered.finals
  rintro _ ⟨⟩ t ending leads
  rw [State.on_redirect] at leads
  split at leads
  · exact named ending leads
  · exact renumbered.edge_on live leads

/-- The same edit of both, where it succeeds in both: if a state that it adds is given corresponding
handles, then the replies correspond, and so do the automata that it leaves. -/
theorem edited (renumbered : Renumbered f known d d') (named : ∀ h ∈ e.handles, known h)
    (edited : d.Edited next e d₁ reply) (editedToo : d'.Edited next' (e.relabel f) d₁' reply')
    (room : d.arena.size ≤ next) (roomToo : d'.arena.size ≤ next')
    (fresh : ∀ h, reply = .issued h → reply' = .issued (f h))
    (wider_iff : ∀ h, wider h ↔ known h ∨ reply = .issued h)
    (renumbering : reply' = reply.relabel f → Renumbering f wider) :
    reply' = reply.relabel f ∧ Renumbered f wider d₁ d₁' := by
  have still : reply' = reply.relabel f → Renumbered f wider d d' := by
    intro same
    refine renumbered.widen (renumbering same) (fun known => (wider_iff _).mpr (.inl known)) ?_
    intro h named
    obtain known | rfl := (wider_iff h).mp named
    · exact .inl known
    · cases fresh h rfl
      exact .inr ⟨unheld_of_room ((edited.filled room).1.symm ▸ room),
        unheld_of_room ((editedToo.filled roomToo).1.symm ▸ roomToo)⟩
  have coherent := edited.coherent renumbered.coherent room
  have coherentToo := editedToo.coherent renumbered.coherentToo roomToo
  have wide : ∀ h ∈ e.handles, wider h := fun h asked => (wider_iff h).mpr (.inl (named h asked))
  cases edited with
  | @add draft text free onA onB supplied =>
    have own := fresh _ rfl
    cases editedToo with
    | add textToo freeToo onAToo onBToo suppliedToo =>
      have own : ⟨d'.tag, next'⟩ = f ⟨d.tag, next⟩ := Reply.issued.inj own
      have rewritten := rewritten_insertState (h := ⟨d.tag, next⟩) rfl room draft
      have live := (rewritten.contains_of_some _).mpr (.inl rfl)
      rw [own] at still ⊢
      exact ⟨rfl, ((still rfl).insertState ((wider_iff _).mpr (.inr rfl)) rfl room (own ▸ roomToo) text
        free (Edit.forall_handles_add.mp wide)).withRoles live draft.isInitial draft.isFinal⟩
  | remove live =>
    cases editedToo with
    | remove liveToo =>
      cases renumbered.eq_relabel live liveToo
      exact ⟨rfl, (still rfl).eraseState live⟩
    | removeUnknown deadToo => simp [renumbered.find?_of_live live] at deadToo
  | removeUnknown dead =>
    cases editedToo with
    | remove liveToo => simp [renumbered.reads (named _ (.head _)), dead] at liveToo
    | removeUnknown _ => exact ⟨rfl, still rfl⟩
  | rename live =>
    cases editedToo with
    | rename liveToo =>
      cases renumbered.eq_relabel live liveToo
      exact ⟨rfl, (still rfl).renameState live coherent coherentToo⟩
  | connect live =>
    cases editedToo with
    | connect liveToo =>
      cases renumbered.eq_relabel live liveToo
      exact ⟨rfl, (still rfl).redirectState live _ (by simpa using wide _ (by simp))⟩
  | disconnect live =>
    cases editedToo with
    | disconnect liveToo =>
      cases renumbered.eq_relabel live liveToo
      exact ⟨rfl, (still rfl).redirectState live _ (by simp)⟩
  | setInitial live =>
    cases editedToo with
    | setInitial _ =>
      rw [renumbered.isInitial (renumbered.live_known live)] at still ⊢
      exact ⟨rfl, (still rfl).withRoles live true false⟩
  | setFinal live =>
    cases editedToo with
    | setFinal _ =>
      rw [renumbered.isFinal (renumbered.live_known live)] at still ⊢
      exact ⟨rfl, (still rfl).withRoles live false true⟩

end Renumbered

/-- What an edit answers, and the automaton that it leaves. -/
inductive Answered (d : Automaton) (next : Nat) (e : Edit) : Except Error Reply → Automaton → Prop where
  | refused (refused : d.Refused next e cause) : Answered d next e (.error cause) d
  | edited (edited : d.Edited next e after reply) : Answered d next e (.ok reply) after

theorem Coherent.answer_unique (coherent : d.Coherent) (answered : d.Answered next e answer d₁)
    (answeredToo : d.Answered next e answer' d₁') : answer = answer' := by
  have result : ∀ {answer d₁}, d.Answered next e answer d₁ → (d.edit next e).result.map (·.2) = answer := by
    intro answer d₁ answered
    cases answered with
    | refused refused => rw [coherent.edit_eq_error_iff.mpr refused]; rfl
    | edited edited => rw [edit_eq_ok_iff.mpr edited]; rfl
  exact (result answered).symm.trans (result answeredToo)

/-- The same edit of both is refused for corresponding causes or succeeds in both, unless an index is
left for it in one family only. -/
theorem Renumbered.answered (renumbered : Renumbered f known d d') (named : ∀ h ∈ e.handles, known h)
    (answered : d.Answered next e answer d₁) (answeredToo : d'.Answered next' (e.relabel f) answer' d₁')
    (alike : answer = .error .tooManyStates ↔ answer' = .error .tooManyStates) :
    (∃ cause, answer = .error cause ∧ answer' = .error (cause.relabel f) ∧ d₁ = d ∧ d₁' = d') ∨
      ∃ reply reply', answer = .ok reply ∧ answer' = .ok reply' ∧ d.Edited next e d₁ reply ∧
        d'.Edited next' (e.relabel f) d₁' reply' := by
  have unique : ∀ {answer d₂}, d'.Answered next' (e.relabel f) answer d₂ → answer = answer' :=
    fun other => renumbered.coherentToo.answer_unique other answeredToo
  cases answered with
  | @refused cause refused =>
    have same : answer' = .error (cause.relabel f) := by
      by_cases exhausted : cause = .tooManyStates
      · subst cause
        exact alike.mp rfl
      · exact (unique (.refused (renumbered.refused named refused exhausted next'))).symm
    refine .inl ⟨cause, rfl, same, rfl, ?_⟩
    cases answeredToo with
    | refused _ => rfl
    | edited _ => contradiction
  | @edited d₁ reply edited =>
    obtain exhausted | ⟨d₂, replyToo, editedToo⟩ := renumbered.succeeds named edited next'
    · have refused := alike.mpr (unique (.refused exhausted)).symm
      contradiction
    · have same := unique (.edited editedToo)
      cases answeredToo with
      | refused _ => contradiction
      | edited answeredToo => exact .inr ⟨reply, _, rfl, rfl, edited, answeredToo⟩

end Automaton
end BinaryAutomata
