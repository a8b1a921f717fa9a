import BinaryAutomata.Proofs.Editing
import Mathlib.Data.List.Nodup

/-! Roles and names agree with the arena. An automaton keeps them beside its states, and every
edit that succeeds keeps them in step, provided that new states go beyond the last slot. -/
namespace BinaryAutomata

/-- The index that a family issues next, once it has given the reply. -/
def Reply.supplyAfter (next : Nat) : Reply → Nat
  | .issued h => h.index + 1
  | _ => next

namespace Automaton

/-- Roles are held by live states, none is final twice, and the name index inverts naming. -/
structure Coherent (d : Automaton) : Prop where
  initial_live {h : StateId} : d.initial = some h → d.contains h = true
  finals_live {h : StateId} : h ∈ d.finals → d.contains h = true
  finals_nodup : d.finals.Nodup
  names_iff {name : String} {h : StateId} :
    d.names.find? name = some h ↔ ∃ q, d.find? h = some q ∧ q.name = name
  names_nodup : (d.names.entries.map Prod.fst).Nodup
  named {h : StateId} {q : State} : d.find? h = some q → q.name ≠ ""

variable {d : Automaton} {h g : StateId} {q : State}

theorem contains_iff : d.contains h = true ↔ ∃ q, d.find? h = some q := Option.isSome_iff_exists

@[simp] theorem find?_withRoles (d : Automaton) (h : StateId) (isInitial isFinal : Bool) :
    (d.withRoles h isInitial isFinal).find? = d.find? := rfl

@[simp] theorem contains_withRoles (d : Automaton) (h : StateId) (isInitial isFinal : Bool) :
    (d.withRoles h isInitial isFinal).contains = d.contains := rfl

@[simp] theorem nameOf_withRoles (d : Automaton) (h : StateId) (isInitial isFinal : Bool) :
    (d.withRoles h isInitial isFinal).nameOf = d.nameOf := rfl

theorem unheld_of_room (room : d.arena.size ≤ h.index) : d.find? h = none := by
  cases live : d.find? h with
  | none => rfl
  | some q =>
    have bound := index_lt_of_find? live
    omega

@[simp] theorem find?_empty (tag : FamilyTag) (alphabet : Alphabet) (h : StateId) :
    (empty tag alphabet).find? h = none := ite_self none

theorem empty_coherent (tag : FamilyTag) (alphabet : Alphabet) : (empty tag alphabet).Coherent where
  initial_live held := by contradiction
  finals_live member := by contradiction
  finals_nodup := .nil
  names_iff {name h} := by
    rw [find?_empty]
    simp [empty]
  names_nodup := .nil
  named live := by simp at live

/-- In `d'` the slot of `h` holds `slot`, the others hold what they hold in `d`, and the index of
names has followed. -/
structure Rewritten (d : Automaton) (h : StateId) (slot : Option State) (d' : Automaton) : Prop where
  reads (g : StateId) : d'.find? g = if g = h then slot else d.find? g
  indexed (name : String) : d'.names.find? name =
    if slot.map (·.name) = some name then some h
    else if (d.find? h).map (·.name) = some name then none
    else d.names.find? name

theorem rewritten_insertState (own : h.owner = d.tag) (room : d.arena.size ≤ h.index)
    (draft : Draft) :
    d.Rewritten h (some ⟨draft.name, draft.onA, draft.onB⟩) (d.insertState h draft) where
  reads := find?_insertState own room draft
  indexed name := by
    simp [insertState, NameIndex.find?_insert, unheld_of_room room, eq_comm (a := name)]

theorem rewritten_eraseState (live : d.find? h = some q) :
    d.Rewritten h none (d.eraseState h q) where
  reads := find?_eraseState (owner_of_find? live) q
  indexed name := by
    simp [eraseState, NameIndex.find?_erase, live, eq_comm (a := name)]

theorem rewritten_renameState (live : d.find? h = some q) (name : String) :
    d.Rewritten h (some { q with name }) (d.renameState h q name) where
  reads := find?_renameState live name
  indexed other := by
    simp [renameState, NameIndex.find?_insert, NameIndex.find?_erase, live, eq_comm (a := other)]

theorem Coherent.rewritten_redirectState (coherent : d.Coherent) (live : d.find? h = some q)
    (s : Symbol) (target : Option StateId) :
    d.Rewritten h (some (q.redirect s target)) (d.redirectState h q s target) where
  reads := find?_redirectState live s target
  indexed name := by
    have holder : d.names.find? q.name = some h := coherent.names_iff.mpr ⟨q, live, rfl⟩
    by_cases own : q.name = name
    · subst name
      simp [Automaton.redirectState, holder]
    · simp [Automaton.redirectState, live, own]

namespace Rewritten

variable {d' : Automaton} {slot : Option State}

theorem contains_of_some (rewritten : d.Rewritten h (some p) d') (g : StateId) :
    d'.contains g = true ↔ g = h ∨ d.contains g = true := by
  unfold contains
  rw [rewritten.reads]
  by_cases same : g = h <;> simp [same]

theorem contains_of_none (rewritten : d.Rewritten h none d') (g : StateId) :
    d'.contains g = true ↔ g ≠ h ∧ d.contains g = true := by
  unfold contains
  rw [rewritten.reads]
  by_cases same : g = h <;> simp [same]

/-- Filling anew the slot of a live state changes nothing about which states are live. -/
theorem contains_of_live (rewritten : d.Rewritten h (some p) d') (live : d.find? h = some q)
    (g : StateId) : d'.contains g = true ↔ d.contains g = true := by
  rw [rewritten.contains_of_some, or_iff_right_iff_imp]
  rintro rfl
  exact Automaton.contains_iff.mpr ⟨q, live⟩

theorem nameOf_of_ne (rewritten : d.Rewritten h slot d') (other : g ≠ h) :
    d'.nameOf g = d.nameOf g := by
  rw [nameOf, rewritten.reads, if_neg other, nameOf]

theorem nameOf_self (rewritten : d.Rewritten h (some p) d') : d'.nameOf h = p.name := by
  simp [nameOf, rewritten.reads]

/-- If the name in the slot is one that no other state has, then the index still inverts naming. -/
theorem names_iff (rewritten : d.Rewritten h slot d') (coherent : d.Coherent)
    (free : ∀ p ∈ slot, ∀ holder, d.names.find? p.name = some holder → holder = h)
    {name : String} {g : StateId} :
    d'.names.find? name = some g ↔ ∃ p, d'.find? g = some p ∧ p.name = name := by
  have held : d.names.find? name = some g ↔ (d.find? g).map (·.name) = some name := by
    rw [coherent.names_iff, Option.map_eq_some_iff]
  rw [← Option.map_eq_some_iff, rewritten.reads, rewritten.indexed]
  by_cases same : g = h
  · subst g
    rw [if_pos rfl]
    split
    · simp [*]
    · split
      · simp [*]
      · simp [*]
  · rw [if_neg same, ← held]
    split
    · rename_i taken
      obtain ⟨p, inSlot, rfl⟩ := Option.map_eq_some_iff.mp taken
      have foreign : d.names.find? p.name ≠ some g := fun own => same (free p inSlot g own)
      simp [foreign, Ne.symm same]
    · split
      · rename_i freed
        have own := coherent.names_iff.mpr (Option.map_eq_some_iff.mp freed)
        simp [own, Ne.symm same]
      · rfl

theorem named (rewritten : d.Rewritten h slot d') (coherent : d.Coherent)
    (inSlot : ∀ p ∈ slot, p.name ≠ "") (live : d'.find? g = some p) : p.name ≠ "" := by
  rw [rewritten.reads] at live
  split at live
  · exact inSlot p live
  · exact coherent.named live

end Rewritten

namespace Coherent

theorem insertState (coherent : d.Coherent) (own : h.owner = d.tag) (room : d.arena.size ≤ h.index)
    (named : draft.name ≠ "") (free : d.names.find? draft.name = none) :
    (d.insertState h draft).Coherent := by
  have rewritten := rewritten_insertState own room draft
  exact {
    initial_live := fun held => (rewritten.contains_of_some _).mpr (.inr (coherent.initial_live held))
    finals_live := fun member => (rewritten.contains_of_some _).mpr (.inr (coherent.finals_live member))
    finals_nodup := coherent.finals_nodup
    names_iff := rewritten.names_iff coherent (by simp [free])
    names_nodup := NameIndex.nodup_insert coherent.names_nodup _ _
    named := rewritten.named coherent (by simpa using named) }

theorem eraseState (coherent : d.Coherent) (live : d.find? h = some q) :
    (d.eraseState h q).Coherent := by
  have rewritten := rewritten_eraseState live
  exact {
    initial_live := by
      intro g held
      obtain ⟨other, held⟩ := Option.ite_none_left_eq_some.mp held
      exact (rewritten.contains_of_none g).mpr
        ⟨fun same => other (same ▸ held), coherent.initial_live held⟩
    finals_live := by
      intro g member
      obtain ⟨other, member⟩ := coherent.finals_nodup.mem_erase_iff.mp member
      exact (rewritten.contains_of_none g).mpr ⟨other, coherent.finals_live member⟩
    finals_nodup := coherent.finals_nodup.erase h
    names_iff := rewritten.names_iff coherent (by simp)
    names_nodup := NameIndex.nodup_erase coherent.names_nodup _
    named := rewritten.named coherent (by simp) }

theorem renameState (coherent : d.Coherent) (live : d.find? h = some q) (named : name ≠ "")
    (free : ∀ holder, d.names.find? name = some holder → holder = h) :
    (d.renameState h q name).Coherent := by
  have rewritten := rewritten_renameState live name
  exact {
    initial_live := fun held => (rewritten.contains_of_some _).mpr (.inr (coherent.initial_live held))
    finals_live := fun member => (rewritten.contains_of_some _).mpr (.inr (coherent.finals_live member))
    finals_nodup := coherent.finals_nodup
    names_iff := rewritten.names_iff coherent (by simpa using free)
    names_nodup := NameIndex.nodup_insert (NameIndex.nodup_erase coherent.names_nodup _) _ _
    named := rewritten.named coherent (by simpa using named) }

theorem redirectState (coherent : d.Coherent) (live : d.find? h = some q) (s : Symbol)
    (target : Option StateId) : (d.redirectState h q s target).Coherent := by
  have rewritten := coherent.rewritten_redirectState live s target
  have holder : d.names.find? q.name = some h := coherent.names_iff.mpr ⟨q, live, rfl⟩
  exact {
    initial_live := fun held => (rewritten.contains_of_some _).mpr (.inr (coherent.initial_live held))
    finals_live := fun member => (rewritten.contains_of_some _).mpr (.inr (coherent.finals_live member))
    finals_nodup := coherent.finals_nodup
    names_iff := rewritten.names_iff coherent (by simp [holder])
    names_nodup := coherent.names_nodup
    named := rewritten.named coherent (by simpa using coherent.named live) }

theorem contains_redirectState (coherent : d.Coherent) (live : d.find? h = some q) (s : Symbol)
    (target : Option StateId) : (d.redirectState h q s target).contains = d.contains := by
  funext g
  rw [Bool.eq_iff_iff, (coherent.rewritten_redirectState live s target).contains_of_live live]

theorem nameOf_redirectState (coherent : d.Coherent) (live : d.find? h = some q) (s : Symbol)
    (target : Option StateId) : (d.redirectState h q s target).nameOf = d.nameOf := by
  have rewritten := coherent.rewritten_redirectState live s target
  funext g
  by_cases own : g = h
  · subst g
    rw [rewritten.nameOf_self, nameOf, live, Option.map_some, Option.getD_some, State.name_redirect]
  · exact rewritten.nameOf_of_ne own

theorem withRoles (coherent : d.Coherent) (live : d.contains h = true) (isInitial isFinal : Bool) :
    (d.withRoles h isInitial isFinal).Coherent where
  initial_live {g} held := by
    simp only [Automaton.withRoles] at held
    split at held
    · cases held; exact live
    · exact coherent.initial_live held
  finals_live {g} member := by
    simp only [Automaton.withRoles] at member
    split at member
    · obtain old | same := List.mem_append.mp member
      · exact coherent.finals_live old
      · exact List.mem_singleton.mp same ▸ live
    · exact coherent.finals_live member
  finals_nodup := by
    simp only [Automaton.withRoles]
    split
    · rename_i joins
      have outside : h ∉ d.finals := by simp_all [Automaton.isFinal]
      simpa only [List.concat_eq_append] using List.Nodup.concat outside coherent.finals_nodup
    · exact coherent.finals_nodup
  names_iff := coherent.names_iff
  names_nodup := coherent.names_nodup
  named := coherent.named

end Coherent

namespace Edited

variable {next : Nat} {e : Edit} {d' : Automaton} {reply : Reply}

theorem coherent (edited : Edited d next e d' reply) (coherent : d.Coherent)
    (room : d.arena.size ≤ next) : d'.Coherent := by
  cases edited with
  | @add draft named free onA onB supplied =>
    have inserted := coherent.insertState (h := ⟨d.tag, next⟩) rfl room named free
    have rewritten := rewritten_insertState (h := ⟨d.tag, next⟩) rfl room draft
    have live := (rewritten.contains_of_some _).mpr (.inl rfl)
    exact inserted.withRoles live draft.isInitial draft.isFinal
  | remove live => exact coherent.eraseState live
  | removeUnknown dead => exact coherent
  | rename live named free => exact coherent.renameState live named free
  | connect live ends => exact coherent.redirectState live _ _
  | disconnect live => exact coherent.redirectState live _ _
  | setInitial live => exact coherent.withRoles live _ _
  | setFinal live => exact coherent.withRoles live _ _

theorem le_supplyAfter (edited : Edited d next e d' reply) : next ≤ reply.supplyAfter next := by
  cases edited with
  | add => exact Nat.le_succ next
  | _ => exact Nat.le_refl next

theorem size_le (edited : Edited d next e d' reply) (room : d.arena.size ≤ next) :
    d'.arena.size ≤ reply.supplyAfter next := by
  cases edited with
  | add => exact Nat.le_of_eq (Arena.size_place _ _ _)
  | remove => exact Nat.le_trans (Nat.le_of_eq (Arena.size_erase _ _)) room
  | rename | connect | disconnect => exact Nat.le_trans (Nat.le_of_eq (Arena.size_replace _ _ _)) room
  | removeUnknown | setInitial | setFinal => exact room

/-- A handle is live after an edit if the edit issued it, or if it was and the edit did not
remove it. -/
theorem contains_iff (edited : Edited d next e d' reply) (coherent : d.Coherent)
    (room : d.arena.size ≤ next) (g : StateId) : d'.contains g = true ↔ reply = .issued g ∨
      (d.contains g = true ∧ ¬ (e = .remove g ∧ reply = .outcome .applied)) := by
  cases edited with
  | @add draft named free onA onB supplied =>
    have rewritten := rewritten_insertState (h := ⟨d.tag, next⟩) rfl room draft
    simpa [added, eq_comm (b := g)] using rewritten.contains_of_some g
  | remove live => simp [(rewritten_eraseState live).contains_of_none, and_comm, eq_comm (b := g)]
  | removeUnknown dead => simp
  | rename live => simp [(rewritten_renameState live _).contains_of_live live]
  | connect live | disconnect live =>
    simp [(coherent.rewritten_redirectState live _ _).contains_of_live live]
  | setInitial live | setFinal live => simp

end Edited
end Automaton
end BinaryAutomata
