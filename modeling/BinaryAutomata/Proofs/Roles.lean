import BinaryAutomata.Proofs.Handles

/-! Roles, told from what was done alone. The initial state is the one that took the role last,
unless it has been removed since; the final states are those that became final and have not been
removed since, in the order in which they did. All views of a state show the same roles. -/
namespace BinaryAutomata

/-- The state to which the deed gave the initial role. -/
def Deed.initial? : Deed → Option StateId
  | ⟨.add draft, .issued h⟩ => if draft.isInitial then some h else none
  | ⟨.setInitial h, .outcome .applied⟩ => some h
  | _ => none

/-- The state that the deed made final. -/
def Deed.final? : Deed → Option StateId
  | ⟨.add draft, .issued h⟩ => if draft.isFinal then some h else none
  | ⟨.setFinal h, .outcome .applied⟩ => some h
  | _ => none

/-- The state took the initial role last, and it has not been removed since. -/
def HoldsInitial (history : List Deed) (h : StateId) : Prop :=
  Since history (fun deed => deed.initial? = some h) fun other =>
    other.initial? ≠ none ∨ other = ⟨.remove h, .outcome .applied⟩

/-- The states that became final, each in its turn, without those that were removed later. The
oldest deed comes first. -/
def lastingFinals : List Deed → List StateId
  | [] => []
  | deed :: later =>
      (deed.final?.toList.filter fun h => ⟨.remove h, .outcome .applied⟩ ∉ later) ++
        lastingFinals later

theorem lastingFinals_concat (deeds : List Deed) (deed : Deed) : lastingFinals (deeds ++ [deed]) =
    (lastingFinals deeds).filter (fun h => deed ≠ ⟨.remove h, .outcome .applied⟩) ++
      deed.final?.toList := by
  induction deeds with
  | nil => simp [lastingFinals]
  | cons first deeds ih =>
    simp only [List.cons_append, lastingFinals, ih, List.filter_append, List.filter_filter,
      List.append_assoc]
    congr 1
    refine List.filter_congr fun h _ => ?_
    simp [eq_comm, Bool.and_comm]

namespace Automaton

variable {d : Automaton}

namespace Edited

theorem initial_iff (edited : Edited d next e d' reply) (h : StateId) : d'.initial = some h ↔
    Deed.initial? ⟨e, reply⟩ = some h ∨ (d.initial = some h ∧
      ¬ (Deed.initial? ⟨e, reply⟩ ≠ none ∨
        (⟨e, reply⟩ : Deed) = ⟨.remove h, .outcome .applied⟩)) := by
  cases edited with
  | @add draft =>
    cases asked : draft.isInitial <;>
      simp [Deed.initial?, added, withRoles, insertState, asked]
  | @remove g q live =>
    by_cases held : d.initial = some g
    · simp [Deed.initial?, eraseState, held]
    · have other : d.initial = some h → g ≠ h := by
        rintro initial rfl
        exact held initial
      simpa [Deed.initial?, eraseState, held] using other
  | @setInitial g live =>
    by_cases held : d.initial = some g <;> simp [Deed.initial?, withRoles, isInitial, held]
  | rename | connect | disconnect | removeUnknown | setFinal =>
    simp [Deed.initial?, renameState, redirectState, withRoles]

theorem finals_eq (edited : Edited d next e d' reply) (coherent : d.Coherent)
    (room : d.arena.size ≤ next) : d'.finals =
      d.finals.filter (fun h => (⟨e, reply⟩ : Deed) ≠ ⟨.remove h, .outcome .applied⟩) ++
        (Deed.final? ⟨e, reply⟩).toList := by
  cases edited with
  | @add draft =>
    -- The new state goes to the end of the order: as final states are live, it is not yet among them.
    have fresh : (d.insertState ⟨d.tag, next⟩ draft).isFinal ⟨d.tag, next⟩ = false := by
      rw [Bool.eq_false_iff]
      intro final
      have live := coherent.finals_live (isFinal_iff.mp final)
      simp [contains, unheld_of_room (h := ⟨d.tag, next⟩) room] at live
    simp only [added, withRoles, fresh]
    cases asked : draft.isFinal <;> simp [Deed.final?, insertState, asked]
  | @remove g q live =>
    simp only [Deed.final?, eraseState, coherent.finals_nodup.erase_eq_filter, Option.toList_none,
      List.append_nil]
    refine List.filter_congr fun h _ => ?_
    simp [bne, beq_eq_decide, eq_comm]
  | @setFinal g live =>
    by_cases held : d.isFinal g = true <;> simp [Deed.final?, withRoles, held]
  | rename | connect | disconnect | removeUnknown | setInitial =>
    simp [Deed.final?, renameState, redirectState, withRoles]

end Edited

/-- A view of a state shows what its handle does, and the roles that it shows are those it has. -/
structure ViewsAgree (d : Automaton) : Prop where
  shown {v : StateView} : v ∈ d.states ∨ d.initialState? = some v ∨ v ∈ d.finalStates →
    d.state? v.id = some v
  listed {h : StateId} {v : StateView} : d.state? h = some v → v.id = h ∧ v ∈ d.states
  initial {h : StateId} {v : StateView} : d.state? h = some v →
    v.isInitial = d.isInitial h ∧ (v.isInitial = true ↔ d.initialState? = some v)
  final {h : StateId} {v : StateView} : d.state? h = some v →
    v.isFinal = d.isFinal h ∧ (v.isFinal = true ↔ v ∈ d.finalStates)

theorem viewsAgree (d : Automaton) : d.ViewsAgree where
  shown seen := by
    obtain listed | initial | final := seen
    · exact mem_states.mp listed
    · exact (initialState?_eq_some_iff.mp initial).2
    · exact (mem_finalStates.mp final).2
  listed {h v} seen := by
    cases id_of_state? seen
    exact ⟨rfl, mem_states.mpr seen⟩
  initial {h v} seen := by
    cases id_of_state? seen
    obtain ⟨q, _, same⟩ := state?_eq_some_iff.mp seen
    have role : v.isInitial = d.isInitial v.id := congrArg StateView.isInitial same
    rw [role, isInitial_iff, initialState?_eq_some_iff, and_iff_left seen]
    exact ⟨rfl, Iff.rfl⟩
  final {h v} seen := by
    cases id_of_state? seen
    obtain ⟨q, _, same⟩ := state?_eq_some_iff.mp seen
    have role : v.isFinal = d.isFinal v.id := congrArg StateView.isFinal same
    rw [role, isFinal_iff, mem_finalStates, and_iff_left seen]
    exact ⟨rfl, Iff.rfl⟩

end Automaton

namespace Lineage

theorem initial_iff (lineage : Lineage d history next) (h : StateId) :
    d.initial = some h ↔ HoldsInitial history h := by
  induction lineage with
  | empty => simp [Automaton.empty, HoldsInitial]
  | waited before passed ih => exact ih
  | edited before edited ih => rw [edited.initial_iff, HoldsInitial, since_cons, ih, HoldsInitial]

theorem finals_eq (lineage : Lineage d history next) : d.finals = lastingFinals history.reverse := by
  induction lineage with
  | empty => rfl
  | waited before passed ih => exact ih
  | edited before edited ih =>
    obtain ⟨coherent, room⟩ := before.sound
    rw [edited.finals_eq coherent room, List.reverse_cons, lastingFinals_concat, ih]

end Lineage

namespace Session

/-- Over any run, with clones taken at any moment: the initial state is the one that took the role
last, if it has not been removed since; the final states are those that became final and have not
been removed since, in that order and none twice. So roles are held by live states, the initial one
by one of them at most, and all views of a state agree. -/
theorem roles_follow_history (run : Run .empty record session)
    (held : session.automaton? number = some d) :
    (∀ h, d.initialState?.map (·.id) = some h ↔ HoldsInitial (history record number) h) ∧
    d.finalStates.map (·.id) = lastingFinals (history record number).reverse ∧
    d.finalStates.map (·.id) = d.finals ∧ d.finals.Nodup ∧
    (∀ v ∈ d.states, ∀ w ∈ d.states, v.isInitial = true → w.isInitial = true → v = w) ∧
    (∀ h, d.isInitial h = true ∨ d.isFinal h = true → d.contains h = true) ∧ d.ViewsAgree := by
  obtain ⟨_, lineage⟩ := run.comes_about held
  obtain ⟨coherent, _⟩ := lineage.sound
  have views := d.viewsAgree
  refine ⟨?_, ?_, coherent.finalState_ids, coherent.finals_nodup, ?_, ?_, views⟩
  · intro h
    rw [coherent.initialState?_id, lineage.initial_iff]
  · rw [coherent.finalState_ids, lineage.finals_eq]
  · intro v listed w listedToo initial initialToo
    have first := (views.initial (views.shown (.inl listed))).2.mp initial
    have second := (views.initial (views.shown (.inl listedToo))).2.mp initialToo
    exact Option.some.inj (first.symm.trans second)
  · rintro h (initial | final)
    · exact coherent.initial_live (Automaton.isInitial_iff.mp initial)
    · exact coherent.finals_live (Automaton.isFinal_iff.mp final)

/-- A session whose state `q` has taken the initial role from `p`. -/
def handedOver : Session where
  members := #[⟨0, 0, .standard, ⟨#[some ⟨"p", none, none⟩, some ⟨"q", none, none⟩]⟩,
    ⟨[("q", ⟨0, 1⟩), ("p", ⟨0, 0⟩)]⟩, some ⟨0, 1⟩, [⟨0, 0⟩, ⟨0, 1⟩]⟩]
  supplies := #[2]

/-- The same session later, when `q` has been removed. -/
def vacated : Session where
  members := #[⟨0, 0, .standard, ⟨#[some ⟨"p", none, none⟩, none, some ⟨"r", none, none⟩]⟩,
    ⟨[("r", ⟨0, 2⟩), ("p", ⟨0, 0⟩)]⟩, none, [⟨0, 0⟩, ⟨0, 2⟩]⟩]
  supplies := #[3]

/-- The role does not go back to `p`, and `q` leaves no trace in the order of the final states. -/
theorem vacated_roles : ∃ record d, Run .empty record vacated ∧ vacated.automaton? 0 = some d ∧
    issuedBy (history record 0) = [⟨0, 0⟩, ⟨0, 1⟩, ⟨0, 2⟩] ∧
    (∀ h, ¬ HoldsInitial (history record 0) h) ∧
    lastingFinals (history record 0).reverse = [⟨0, 0⟩, ⟨0, 2⟩] ∧ d.ViewsAgree := by
  have first : Run .empty
      [⟨.edit 0 (.add ⟨"q", none, none, true, true⟩),
          ⟨[.addedState "q" ⟨0, 1⟩, .clearedInitial "p", .becameInitial "q", .becameFinal "q"],
            .ok (.issued ⟨0, 1⟩)⟩⟩,
        ⟨.edit 0 (.add ⟨"p", none, none, true, true⟩),
          ⟨[.addedState "p" ⟨0, 0⟩, .becameInitial "p", .becameFinal "p"], .ok (.issued ⟨0, 0⟩)⟩⟩,
        ⟨.found .standard, ⟨[], .ok (.created 0)⟩⟩] handedOver :=
    .perform (.perform (.perform (.refl .empty) rfl) rfl) rfl
  have later : Run handedOver
      [⟨.edit 0 (.remove ⟨0, 1⟩), ⟨[.removedState "q" ⟨0, 1⟩], .ok (.outcome .applied)⟩⟩,
        ⟨.edit 0 (.setFinal ⟨0, 0⟩),
          ⟨[.alreadyFinal "p"], .ok (.outcome (.unchanged .alreadyFinal))⟩⟩,
        ⟨.edit 0 (.add ⟨"r", none, none, false, true⟩),
          ⟨[.addedState "r" ⟨0, 2⟩, .becameFinal "r"], .ok (.issued ⟨0, 2⟩)⟩⟩] vacated :=
    .perform (.perform (.perform (.refl handedOver) rfl) rfl) rfl
  obtain ⟨initial, finals, _, _, _, _, views⟩ :=
    roles_follow_history (first.trans later) (show vacated.automaton? 0 = some _ from rfl)
  refine ⟨_, _, first.trans later, rfl, rfl, ?_, finals.symm, views⟩
  intro h holds
  have held := (initial h).mpr holds
  contradiction

end Session
end BinaryAutomata
