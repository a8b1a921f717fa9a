import BinaryAutomata.Proofs.Naming

/-! Why edits are refused. Each check has one cause to give, and the first that fails gives it, so an
edit is refused with a cause exactly if all that is checked before is in order. -/
namespace BinaryAutomata.Automaton
open Report

/-- No live state but the exempt one has the name, and it is one that a state can have. -/
def NameFree (d : Automaton) (exempt : Option StateId) (name : String) : Prop :=
  name ≠ "" ∧ ∀ v ∈ d.states, v.state.name = name → exempt = some v.id

inductive NameRefused (d : Automaton) (exempt : Option StateId) : String → Error → Prop where
  | empty : NameRefused d exempt "" .emptyStateName
  | taken (named : name ≠ "") (listed : v ∈ d.states) (holds : v.state.name = name)
      (other : exempt ≠ some v.id) : NameRefused d exempt name (.duplicateStateName name)

/-- An edit that is refused, `next` being the index that the family would issue: what it has found
wrong, after all that it has found in order. -/
inductive Refused (d : Automaton) (next : Nat) : Edit → Error → Prop where
  | addName (refused : d.NameRefused none draft.name cause) : Refused d next (.add draft) cause
  | addOnA (free : d.NameFree none draft.name) (onA : draft.onA = some h)
      (dead : d.contains h = false) : Refused d next (.add draft) (.stateNotFound h)
  | addOnB (free : d.NameFree none draft.name) (liveA : ∀ g ∈ draft.onA, d.contains g = true)
      (onB : draft.onB = some h) (dead : d.contains h = false) :
      Refused d next (.add draft) (.stateNotFound h)
  | addExhausted (free : d.NameFree none draft.name) (liveA : ∀ g ∈ draft.onA, d.contains g = true)
      (liveB : ∀ g ∈ draft.onB, d.contains g = true) (exhausted : supplyLimit ≤ next) :
      Refused d next (.add draft) .tooManyStates
  | renameDead (dead : d.contains h = false) : Refused d next (.rename h name) (.stateNotFound h)
  | renameName (live : d.contains h = true) (refused : d.NameRefused (some h) name cause) :
      Refused d next (.rename h name) cause
  | connectTarget (dead : d.contains target = false) :
      Refused d next (.connect source s target) (.stateNotFound target)
  | connectSource (live : d.contains target = true) (dead : d.contains source = false) :
      Refused d next (.connect source s target) (.stateNotFound source)
  | disconnect (dead : d.contains h = false) : Refused d next (.disconnect h s) (.stateNotFound h)
  | setInitial (dead : d.contains h = false) : Refused d next (.setInitial h) (.stateNotFound h)
  | setFinal (dead : d.contains h = false) : Refused d next (.setFinal h) (.stateNotFound h)

variable {d : Automaton}

theorem NameRefused.not_exhausted (refused : d.NameRefused exempt name cause) :
    cause ≠ .tooManyStates := by
  cases refused <;> nofun

theorem Refused.supplyLimit_le (refused : d.Refused next e cause) (same : cause = .tooManyStates) :
    supplyLimit ≤ next := by
  cases refused with
  | addName refused | renameName _ refused => exact absurd same refused.not_exhausted
  | addExhausted _ _ _ exhausted => exact exhausted
  | _ => contradiction

theorem require_eq_error_iff :
    (d.require h).result = .error cause ↔ d.contains h = false ∧ cause = .stateNotFound h := by
  unfold require contains
  cases d.find? h <;> simp [fail, eq_comm]

theorem checkLive_eq_error_iff :
    (d.checkLive h).result = .error cause ↔ d.contains h = false ∧ cause = .stateNotFound h := by
  unfold checkLive
  cases d.contains h <;> simp [fail, eq_comm]

theorem checkTarget_eq_error_iff : (d.checkTarget target).result = .error cause ↔
    ∃ h, target = some h ∧ d.contains h = false ∧ cause = .stateNotFound h := by
  cases target with
  | none => simp [checkTarget]
  | some h => simp [checkTarget, checkLive_eq_error_iff]

theorem issue_eq_error_iff :
    (d.issue next).result = .error cause ↔ supplyLimit ≤ next ∧ cause = .tooManyStates := by
  unfold issue
  by_cases supplied : next < supplyLimit
  · simp [supplied, Nat.not_le.mpr supplied]
  · simp [supplied, Nat.not_lt.mp supplied, fail, eq_comm]

theorem not_makeInitial_error : (d.makeInitial h).result ≠ .error cause := by
  unfold makeInitial
  split <;> simp [log]

theorem not_makeFinal_error : (d.makeFinal h).result ≠ .error cause := by
  unfold makeFinal
  split <;> simp [log]

theorem connect_eq_error_iff (next : Nat) : (d.connect source s target).result = .error cause ↔
    d.Refused next (.connect source s target) cause := by
  simp only [connect, bind_eq_error_iff, checkLive_eq_error_iff, checkLive_eq_ok_iff,
    require_eq_error_iff, log, pure_eq, reduceCtorEq, and_false, exists_false, or_false]
  constructor
  · rintro (⟨dead, rfl⟩ | ⟨_, live, dead, rfl⟩)
    · exact .connectTarget dead
    · exact .connectSource live dead
  · intro refused
    cases refused with
    | connectTarget dead => exact .inl ⟨dead, rfl⟩
    | connectSource live dead => exact .inr ⟨(), live, dead, rfl⟩

theorem disconnect_eq_error_iff (next : Nat) : (d.disconnect h s).result = .error cause ↔
    d.Refused next (.disconnect h s) cause := by
  simp only [disconnect, bind_eq_error_iff, require_eq_error_iff, log, pure_eq, reduceCtorEq,
    and_false, exists_false, or_false]
  constructor
  · rintro ⟨dead, rfl⟩
    exact .disconnect dead
  · intro refused
    cases refused with
    | disconnect dead => exact ⟨dead, rfl⟩

theorem setInitial_eq_error_iff (next : Nat) : (d.setInitial h).result = .error cause ↔
    d.Refused next (.setInitial h) cause := by
  simp only [setInitial, bind_eq_error_iff, checkLive_eq_error_iff, not_makeInitial_error, and_false,
    exists_false, or_false]
  constructor
  · rintro ⟨dead, rfl⟩
    exact .setInitial dead
  · intro refused
    cases refused with
    | setInitial dead => exact ⟨dead, rfl⟩

theorem setFinal_eq_error_iff (next : Nat) : (d.setFinal h).result = .error cause ↔
    d.Refused next (.setFinal h) cause := by
  simp only [setFinal, bind_eq_error_iff, checkLive_eq_error_iff, not_makeFinal_error, and_false,
    exists_false, or_false]
  constructor
  · rintro ⟨dead, rfl⟩
    exact .setFinal dead
  · intro refused
    cases refused with
    | setFinal dead => exact ⟨dead, rfl⟩

namespace Coherent

theorem checkName_eq_ok_iff_free (coherent : d.Coherent) :
    (d.checkName name exempt).result = .ok done ↔ d.NameFree exempt name := by
  rw [checkName_eq_ok_iff, NameFree, coherent.forall_holder_iff (exempt = some ·)]

theorem checkName_eq_error_iff (coherent : d.Coherent) :
    (d.checkName name exempt).result = .error cause ↔ d.NameRefused exempt name cause := by
  constructor
  · intro refused
    unfold checkName at refused
    split at refused
    · subst name
      cases refused
      exact .empty
    · rename_i named
      split at refused
      · rename_i holder held
        split at refused
        · contradiction
        · rename_i other
          cases refused
          obtain ⟨v, seen, holds⟩ := coherent.stateNamed?_eq_some_iff.mp held
          cases id_of_state? seen
          exact .taken named (mem_states.mpr seen) holds other
      · contradiction
  · intro refused
    cases refused with
    | empty => simp [checkName, fail]
    | taken named listed holds other =>
      have held := coherent.find?_name listed
      rw [holds] at held
      simp [checkName, named, held, other, fail]

theorem add_eq_error_iff (coherent : d.Coherent) :
    (d.add next draft).result = .error cause ↔ d.Refused next (.add draft) cause := by
  obtain ⟨name, onA, onB, isInitial, isFinal⟩ := draft
  simp only [add, bind_eq_error_iff, coherent.checkName_eq_error_iff,
    coherent.checkName_eq_ok_iff_free, checkTarget_eq_error_iff, checkTarget_eq_ok_iff,
    issue_eq_error_iff, issue_eq_ok_iff, log, reduceCtorEq, false_or]
  constructor
  · rintro (refused | ⟨_, free, ⟨h, onA, dead, rfl⟩ | ⟨_, liveA, ⟨h, onB, dead, rfl⟩ | ⟨_, liveB,
      ⟨exhausted, rfl⟩ | ⟨_, _, _, _, granted⟩⟩⟩⟩)
    · exact .addName refused
    · exact .addOnA free onA dead
    · exact .addOnB free liveA onB dead
    · exact .addExhausted free liveA liveB exhausted
    · -- Once the state is in place it is only given its roles, and this cannot fail.
      cases isInitial <;> cases isFinal <;>
        simp [bind_eq_error_iff, not_makeInitial_error, not_makeFinal_error] at granted
  · intro refused
    cases refused with
    | addName refused => exact .inl refused
    | addOnA free onA dead => exact .inr ⟨(), free, .inl ⟨_, onA, dead, rfl⟩⟩
    | addOnB free liveA onB dead => exact .inr ⟨(), free, .inr ⟨(), liveA, .inl ⟨_, onB, dead, rfl⟩⟩⟩
    | addExhausted free liveA liveB exhausted =>
      exact .inr ⟨(), free, .inr ⟨(), liveA, .inr ⟨(), liveB, .inl ⟨exhausted, rfl⟩⟩⟩⟩

theorem rename_eq_error_iff (coherent : d.Coherent) (next : Nat) :
    (d.rename h name).result = .error cause ↔ d.Refused next (.rename h name) cause := by
  simp only [rename, bind_eq_error_iff, require_eq_error_iff, require_eq_ok_iff,
    coherent.checkName_eq_error_iff, pure_eq, reduceCtorEq, and_false, exists_false, or_false]
  constructor
  · rintro (⟨dead, rfl⟩ | ⟨q, live, refused⟩)
    · exact .renameDead dead
    · exact .renameName (contains_iff.mpr ⟨q, live⟩) refused
  · intro refused
    cases refused with
    | renameDead dead => exact .inl ⟨dead, rfl⟩
    | renameName live refused =>
      obtain ⟨q, live⟩ := contains_iff.mp live
      exact .inr ⟨q, live, refused⟩

/-- An edit is refused with the cause that the first failing check gives, and with no other. -/
theorem edit_eq_error_iff (coherent : d.Coherent) :
    (d.edit next e).result = .error cause ↔ d.Refused next e cause := by
  cases e with
  | add draft => simp [edit, bind_eq_error_iff, coherent.add_eq_error_iff]
  | remove h =>
    constructor
    · simp only [edit, remove]
      cases d.find? h <;> simp [log]
    · rintro ⟨⟩
  | rename h name => simp [edit, bind_eq_error_iff, coherent.rename_eq_error_iff next]
  | connect source s target => simp [edit, bind_eq_error_iff, connect_eq_error_iff next]
  | disconnect h s => simp [edit, bind_eq_error_iff, disconnect_eq_error_iff next]
  | setInitial h => simp [edit, bind_eq_error_iff, setInitial_eq_error_iff next]
  | setFinal h => simp [edit, bind_eq_error_iff, setFinal_eq_error_iff next]

end Coherent
end BinaryAutomata.Automaton
