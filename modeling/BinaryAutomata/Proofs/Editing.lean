import BinaryAutomata.Edit

/-! What an edit that succeeds has checked and what it leaves, as one relation. Every invariant
of automata is derived from it. -/
namespace BinaryAutomata.Automaton
open Report

theorem require_eq_ok_iff {d : Automaton} : (d.require h).result = .ok q ↔ d.find? h = some q := by
  unfold require
  cases d.find? h <;> simp [fail]

theorem checkLive_eq_ok_iff {d : Automaton} :
    (d.checkLive h).result = .ok done ↔ d.contains h = true := by
  unfold checkLive
  split <;> simp_all [fail]

theorem checkTarget_eq_ok_iff {d : Automaton} :
    (d.checkTarget target).result = .ok done ↔ ∀ h ∈ target, d.contains h = true := by
  cases target with
  | none => simp [checkTarget]
  | some h => simp [checkTarget, checkLive_eq_ok_iff]

theorem checkName_eq_ok_iff {d : Automaton} :
    (d.checkName name exempt).result = .ok done ↔
      name ≠ "" ∧ ∀ holder, d.names.find? name = some holder → exempt = some holder := by
  unfold checkName
  by_cases empty : name = ""
  · simp [empty, fail]
  · cases held : d.names.find? name with
    | none => simp [empty]
    | some holder => by_cases own : exempt = some holder <;> simp [empty, own, fail]

theorem issue_eq_ok_iff {d : Automaton} :
    (d.issue next).result = .ok h ↔ next < supplyLimit ∧ h = ⟨d.tag, next⟩ := by
  unfold issue
  by_cases supplied : next < supplyLimit <;> simp [supplied, fail, eq_comm]

/-- Gives `h` the roles asked for. A state that is final already keeps its place in the order. -/
def withRoles (d : Automaton) (h : StateId) (isInitial isFinal : Bool) : Automaton := { d with
  initial := if isInitial then some h else d.initial
  finals := if isFinal && !d.isFinal h then d.finals ++ [h] else d.finals }

@[simp] theorem withRoles_false (d : Automaton) (h : StateId) : d.withRoles h false false = d := rfl

@[simp] theorem withRoles_initial_final (d : Automaton) (h : StateId) :
    (d.withRoles h true false).withRoles h false true = d.withRoles h true true := rfl

theorem makeInitial_eq_ok_iff {d : Automaton} : (d.makeInitial h).result = .ok (d', outcome) ↔
    d' = d.withRoles h true false ∧
      outcome = if d.isInitial h then .unchanged .alreadyInitial else .applied := by
  unfold makeInitial
  by_cases held : d.initial = some h
  · have same : d.withRoles h true false = d := by simp [withRoles, ← held]
    simp [held, isInitial, log, same, eq_comm]
  · simp [held, isInitial, log, withRoles, eq_comm]

theorem makeFinal_eq_ok_iff {d : Automaton} : (d.makeFinal h).result = .ok (d', outcome) ↔
    d' = d.withRoles h false true ∧
      outcome = if d.isFinal h then .unchanged .alreadyFinal else .applied := by
  unfold makeFinal
  by_cases held : d.isFinal h
  · simp [held, log, withRoles, eq_comm]
  · simp [held, log, withRoles, eq_comm]

/-- The automaton with one more state, in the slot of `h`. -/
def added (d : Automaton) (h : StateId) (draft : Draft) : Automaton :=
  (d.insertState h draft).withRoles h draft.isInitial draft.isFinal

theorem add_eq_ok_iff {d : Automaton} : (d.add next draft).result = .ok (d', h) ↔
    (draft.name ≠ "" ∧ d.names.find? draft.name = none) ∧
      (∀ target ∈ draft.onA, d.contains target = true) ∧
      (∀ target ∈ draft.onB, d.contains target = true) ∧
      next < supplyLimit ∧ d' = d.added ⟨d.tag, next⟩ draft ∧ h = ⟨d.tag, next⟩ := by
  obtain ⟨name, onA, onB, isInitial, isFinal⟩ := draft
  have free : (∀ holder, d.names.find? name = some holder → none = some holder) ↔
      d.names.find? name = none := by
    simp [Option.eq_none_iff_forall_ne_some]
  simp only [add, bind_eq_ok_iff, checkName_eq_ok_iff, checkTarget_eq_ok_iff, issue_eq_ok_iff, log,
    free, added]
  cases isInitial <;> cases isFinal <;>
    simp [bind_eq_ok_iff, makeInitial_eq_ok_iff, makeFinal_eq_ok_iff, eq_comm (b := d'),
      eq_comm (b := h), and_assoc]

theorem remove_eq_ok_iff {d : Automaton} : (d.remove h).result = .ok (d', outcome) ↔
    (d.find? h = none ∧ d' = d ∧ outcome = .unchanged .stateNotFound) ∨
      ∃ q, d.find? h = some q ∧ d' = d.eraseState h q ∧ outcome = .applied := by
  unfold remove
  cases d.find? h with
  | none => simp [log, eq_comm]
  | some q => simp [log, eq_comm]

theorem rename_eq_ok_iff {d : Automaton} : (d.rename h name).result = .ok d' ↔
    ∃ q, d.find? h = some q ∧ name ≠ "" ∧
      (∀ holder, d.names.find? name = some holder → holder = h) ∧ d' = d.renameState h q name := by
  simp only [rename, bind_eq_ok_iff, require_eq_ok_iff, checkName_eq_ok_iff, pure_eq,
    Except.ok.injEq, Option.some.injEq]
  constructor
  · rintro ⟨q, live, _, ⟨named, free⟩, rfl⟩
    exact ⟨q, live, named, fun holder held => (free holder held).symm, rfl⟩
  · rintro ⟨q, live, named, free, rfl⟩
    exact ⟨q, live, ⟨⟩, ⟨named, fun holder held => (free holder held).symm⟩, rfl⟩

theorem connect_eq_ok_iff {d : Automaton} : (d.connect source s target).result = .ok d' ↔
    d.contains target = true ∧
      ∃ q, d.find? source = some q ∧ d' = d.redirectState source q s (some target) := by
  simp [connect, bind_eq_ok_iff, checkLive_eq_ok_iff, require_eq_ok_iff, log, eq_comm (b := d')]

theorem disconnect_eq_ok_iff {d : Automaton} : (d.disconnect source s).result = .ok d' ↔
    ∃ q, d.find? source = some q ∧ d' = d.redirectState source q s none := by
  simp [disconnect, bind_eq_ok_iff, require_eq_ok_iff, log, eq_comm (b := d')]

theorem setInitial_eq_ok_iff {d : Automaton} : (d.setInitial h).result = .ok (d', outcome) ↔
    d.contains h = true ∧ d' = d.withRoles h true false ∧
      outcome = if d.isInitial h then .unchanged .alreadyInitial else .applied := by
  simp [setInitial, bind_eq_ok_iff, checkLive_eq_ok_iff, makeInitial_eq_ok_iff]

theorem setFinal_eq_ok_iff {d : Automaton} : (d.setFinal h).result = .ok (d', outcome) ↔
    d.contains h = true ∧ d' = d.withRoles h false true ∧
      outcome = if d.isFinal h then .unchanged .alreadyFinal else .applied := by
  simp [setFinal, bind_eq_ok_iff, checkLive_eq_ok_iff, makeFinal_eq_ok_iff]

/-- An edit that succeeds, `next` being the index that the family would issue: what it has
checked, the automaton that it leaves and its reply. -/
inductive Edited (d : Automaton) (next : Nat) : Edit → Automaton → Reply → Prop where
  | add (named : draft.name ≠ "") (free : d.names.find? draft.name = none)
      (onA : ∀ target ∈ draft.onA, d.contains target = true)
      (onB : ∀ target ∈ draft.onB, d.contains target = true) (supplied : next < supplyLimit) :
      Edited d next (.add draft) (d.added ⟨d.tag, next⟩ draft) (.issued ⟨d.tag, next⟩)
  | remove (live : d.find? h = some q) :
      Edited d next (.remove h) (d.eraseState h q) (.outcome .applied)
  | removeUnknown (dead : d.find? h = none) :
      Edited d next (.remove h) d (.outcome (.unchanged .stateNotFound))
  | rename (live : d.find? h = some q) (named : name ≠ "")
      (free : ∀ holder, d.names.find? name = some holder → holder = h) :
      Edited d next (.rename h name) (d.renameState h q name) .done
  | connect (live : d.find? source = some q) (ends : d.contains target = true) :
      Edited d next (.connect source s target) (d.redirectState source q s (some target)) .done
  | disconnect (live : d.find? source = some q) :
      Edited d next (.disconnect source s) (d.redirectState source q s none) .done
  | setInitial (live : d.contains h = true) :
      Edited d next (.setInitial h) (d.withRoles h true false)
        (.outcome (if d.isInitial h then .unchanged .alreadyInitial else .applied))
  | setFinal (live : d.contains h = true) :
      Edited d next (.setFinal h) (d.withRoles h false true)
        (.outcome (if d.isFinal h then .unchanged .alreadyFinal else .applied))

theorem Edited.tag_eq {d d' : Automaton} (edited : Edited d next e d' reply) : d'.tag = d.tag := by
  cases edited <;> rfl

theorem edit_eq_ok_iff {d : Automaton} :
    (d.edit next e).result = .ok (d', reply) ↔ Edited d next e d' reply := by
  cases e with
  | add draft =>
    simp only [edit, bind_eq_ok_iff, Prod.exists, add_eq_ok_iff, pure_eq, Except.ok.injEq,
      Prod.mk.injEq]
    constructor
    · rintro ⟨_, _, ⟨⟨named, free⟩, onA, onB, supplied, rfl, rfl⟩, rfl, rfl⟩
      exact .add named free onA onB supplied
    · intro edited
      cases edited with
      | add named free onA onB supplied =>
        exact ⟨_, _, ⟨⟨named, free⟩, onA, onB, supplied, rfl, rfl⟩, rfl, rfl⟩
  | remove h =>
    simp only [edit, bind_eq_ok_iff, Prod.exists, remove_eq_ok_iff, pure_eq, Except.ok.injEq,
      Prod.mk.injEq]
    constructor
    · rintro ⟨_, _, ⟨dead, rfl, rfl⟩ | ⟨q, live, rfl, rfl⟩, rfl, rfl⟩
      · exact .removeUnknown dead
      · exact .remove live
    · intro edited
      cases edited with
      | remove live => exact ⟨_, _, .inr ⟨_, live, rfl, rfl⟩, rfl, rfl⟩
      | removeUnknown dead => exact ⟨_, _, .inl ⟨dead, rfl, rfl⟩, rfl, rfl⟩
  | rename h name =>
    simp only [edit, bind_eq_ok_iff, rename_eq_ok_iff, pure_eq, Except.ok.injEq, Prod.mk.injEq]
    constructor
    · rintro ⟨_, ⟨q, live, named, free, rfl⟩, rfl, rfl⟩
      exact .rename live named free
    · intro edited
      cases edited with
      | rename live named free => exact ⟨_, ⟨_, live, named, free, rfl⟩, rfl, rfl⟩
  | connect source s target =>
    simp only [edit, bind_eq_ok_iff, connect_eq_ok_iff, pure_eq, Except.ok.injEq, Prod.mk.injEq]
    constructor
    · rintro ⟨_, ⟨ends, q, live, rfl⟩, rfl, rfl⟩
      exact .connect live ends
    · intro edited
      cases edited with
      | connect live ends => exact ⟨_, ⟨ends, _, live, rfl⟩, rfl, rfl⟩
  | disconnect source s =>
    simp only [edit, bind_eq_ok_iff, disconnect_eq_ok_iff, pure_eq, Except.ok.injEq, Prod.mk.injEq]
    constructor
    · rintro ⟨_, ⟨q, live, rfl⟩, rfl, rfl⟩
      exact .disconnect live
    · intro edited
      cases edited with
      | disconnect live => exact ⟨_, ⟨_, live, rfl⟩, rfl, rfl⟩
  | setInitial h =>
    simp only [edit, bind_eq_ok_iff, Prod.exists, setInitial_eq_ok_iff, pure_eq, Except.ok.injEq,
      Prod.mk.injEq]
    constructor
    · rintro ⟨_, _, ⟨live, rfl, rfl⟩, rfl, rfl⟩
      exact .setInitial live
    · intro edited
      cases edited with
      | setInitial live => exact ⟨_, _, ⟨live, rfl, rfl⟩, rfl, rfl⟩
  | setFinal h =>
    simp only [edit, bind_eq_ok_iff, Prod.exists, setFinal_eq_ok_iff, pure_eq, Except.ok.injEq,
      Prod.mk.injEq]
    constructor
    · rintro ⟨_, _, ⟨live, rfl, rfl⟩, rfl, rfl⟩
      exact .setFinal live
    · intro edited
      cases edited with
      | setFinal live => exact ⟨_, _, ⟨live, rfl, rfl⟩, rfl, rfl⟩

end BinaryAutomata.Automaton
