import BinaryAutomata.Proofs.Views
import BinaryAutomata.Proofs.Run

/-! Names. The index finds the live state that has a name and no other, so live states have distinct
names and there are as many names as states. A name is free for all but its holder, and for all once
the holder has been removed or has got another. -/
namespace BinaryAutomata.Automaton

variable {d : Automaton}

/-- Whatever else is asked for and can be had, an add under the name succeeds, and so does renaming
a live state to it. -/
structure Available (d : Automaton) (name : String) : Prop where
  add {next : Nat} {draft : Draft} : draft.name = name →
    (∀ target ∈ draft.onA, d.contains target = true) →
    (∀ target ∈ draft.onB, d.contains target = true) → next < supplyLimit →
    ∃ done, (d.add next draft).result = .ok done
  rename {h : StateId} : d.contains h = true → ∃ d', (d.rename h name).result = .ok d'

theorem available_of_free (named : name ≠ "") (free : d.names.find? name = none) :
    d.Available name where
  add := by
    rintro next draft rfl onA onB supplied
    exact ⟨_, add_eq_ok_iff.mpr ⟨⟨named, free⟩, onA, onB, supplied, rfl, rfl⟩⟩
  rename := by
    intro h live
    obtain ⟨q, live⟩ := contains_iff.mp live
    exact ⟨_, rename_eq_ok_iff.mpr ⟨q, live, named, by simp [free], rfl⟩⟩

namespace Coherent

theorem stateNamed?_eq_some_iff (coherent : d.Coherent) : d.stateNamed? name = some h ↔
    ∃ v, d.state? h = some v ∧ v.state.name = name := by
  rw [stateNamed?, coherent.names_iff]
  constructor
  · rintro ⟨q, live, rfl⟩
    exact ⟨_, state?_of_live live, rfl⟩
  · rintro ⟨v, seen, rfl⟩
    obtain ⟨q, live, rfl⟩ := state?_eq_some_iff.mp seen
    exact ⟨q, live, rfl⟩

theorem named_of_listed (coherent : d.Coherent) (listed : v ∈ d.states) : v.state.name ≠ "" := by
  obtain ⟨q, live, same⟩ := state?_eq_some_iff.mp (mem_states.mp listed)
  rw [same]
  exact coherent.named live

theorem find?_name (coherent : d.Coherent) (listed : v ∈ d.states) :
    d.names.find? v.state.name = some v.id :=
  coherent.stateNamed?_eq_some_iff.mpr ⟨v, mem_states.mp listed, rfl⟩

theorem eq_of_name_eq (coherent : d.Coherent) (listed : v ∈ d.states) (listedToo : w ∈ d.states)
    (same : v.state.name = w.state.name) : v = w := by
  have held := coherent.find?_name listed
  rw [same, coherent.find?_name listedToo] at held
  have seen := mem_states.mp listed
  rw [← Option.some.inj held, mem_states.mp listedToo] at seen
  exact (Option.some.inj seen).symm

/-- What holds of the holder of a name in the index holds of the states that have the name. -/
theorem forall_holder_iff (coherent : d.Coherent) (P : StateId → Prop) :
    (∀ holder, d.names.find? name = some holder → P holder) ↔
      ∀ v ∈ d.states, v.state.name = name → P v.id := by
  constructor
  · rintro holds v listed rfl
    exact holds v.id (coherent.find?_name listed)
  · intro holds holder held
    obtain ⟨v, seen, named⟩ := coherent.stateNamed?_eq_some_iff.mp held
    cases id_of_state? seen
    exact holds v (mem_states.mpr seen) named

theorem free_iff (coherent : d.Coherent) :
    d.names.find? name = none ↔ ∀ v ∈ d.states, v.state.name ≠ name := by
  rw [Option.eq_none_iff_forall_ne_some]
  exact coherent.forall_holder_iff fun _ => False

theorem held_by_iff (coherent : d.Coherent) (h : StateId) :
    (∀ holder, d.names.find? name = some holder → holder = h) ↔
      ∀ v ∈ d.states, v.state.name = name → v.id = h :=
  coherent.forall_holder_iff (· = h)

theorem nodup_names (coherent : d.Coherent) : (d.states.map (·.state.name)).Nodup := by
  have ids : (d.states.map (·.id)).Nodup := d.pairwise_state_ids.imp fun less same => by
    simp [same] at less
  exact (List.Nodup.of_map _ ids).map_on fun v listed w listedToo same =>
    coherent.eq_of_name_eq listed listedToo same

/-- The index has the names of the live states for its keys. -/
theorem mem_keys_iff (coherent : d.Coherent) :
    name ∈ d.names.entries.map Prod.fst ↔ name ∈ d.states.map (·.state.name) := by
  rw [NameIndex.mem_keys, List.mem_map]
  constructor
  · rintro ⟨h, held⟩
    obtain ⟨v, seen, named⟩ := coherent.stateNamed?_eq_some_iff.mp held
    cases id_of_state? seen
    exact ⟨v, mem_states.mpr seen, named⟩
  · rintro ⟨v, listed, rfl⟩
    exact ⟨v.id, coherent.find?_name listed⟩

theorem size_eq_length_states (coherent : d.Coherent) : d.size = d.states.length := by
  have same : (d.names.entries.map Prod.fst).Perm (d.states.map (·.state.name)) :=
    (List.perm_ext_iff_of_nodup coherent.names_nodup coherent.nodup_names).mpr
      fun _ => coherent.mem_keys_iff
  simpa [size, NameIndex.size] using same.length_eq

end Coherent

theorem available_eraseState (live : d.find? h = some q) (named : q.name ≠ "") :
    (d.eraseState h q).Available q.name :=
  available_of_free named (by simp [(rewritten_eraseState live).indexed, live])

theorem available_renameState (live : d.find? h = some q) (named : q.name ≠ "")
    (other : name ≠ q.name) : (d.renameState h q name).Available q.name :=
  available_of_free named (by simp [(rewritten_renameState live name).indexed, live, other])

/-- The name index inverts naming: it finds the live state that has a name. So live states have
distinct names, as many as there are states, and an add or a rename can have a name unless another
live state has it. The name of a state is free as soon as the state is removed or renamed. -/
theorem names_invert_states (arises : d.Arises) :
    (∀ name h, d.stateNamed? name = some h ↔ ∃ v, d.state? h = some v ∧ v.state.name = name) ∧
    (d.states.map (·.state.name)).Nodup ∧ (∀ v ∈ d.states, v.state.name ≠ "") ∧
    d.size = d.states.length ∧
    (∀ next draft, (∃ done, (d.add next draft).result = .ok done) ↔
      (draft.name ≠ "" ∧ ∀ v ∈ d.states, v.state.name ≠ draft.name) ∧
      (∀ target ∈ draft.onA, d.contains target = true) ∧
      (∀ target ∈ draft.onB, d.contains target = true) ∧ next < supplyLimit) ∧
    (∀ h name, (∃ d', (d.rename h name).result = .ok d') ↔
      d.contains h = true ∧ name ≠ "" ∧ ∀ v ∈ d.states, v.state.name = name → v.id = h) ∧
    (∀ v ∈ d.states,
      (∃ d', (d.remove v.id).result = .ok (d', .applied) ∧ d'.Available v.state.name) ∧
      (∀ name d', (d.rename v.id name).result = .ok d' → name ≠ v.state.name →
        d'.Available v.state.name) ∧
      ∃ d', (d.rename v.id v.state.name).result = .ok d') := by
  have coherent := arises.coherent
  refine ⟨?_, coherent.nodup_names, fun v => coherent.named_of_listed,
    coherent.size_eq_length_states, ?_, ?_, ?_⟩
  · exact fun name h => coherent.stateNamed?_eq_some_iff
  · intro next draft
    rw [← coherent.free_iff]
    constructor
    · rintro ⟨⟨d', h⟩, added⟩
      obtain ⟨named, onA, onB, supplied, _⟩ := add_eq_ok_iff.mp added
      exact ⟨named, onA, onB, supplied⟩
    · rintro ⟨named, onA, onB, supplied⟩
      exact ⟨_, add_eq_ok_iff.mpr ⟨named, onA, onB, supplied, rfl, rfl⟩⟩
  · intro h name
    rw [← coherent.held_by_iff, contains_iff]
    constructor
    · rintro ⟨d', renamed⟩
      obtain ⟨q, live, named, own, _⟩ := rename_eq_ok_iff.mp renamed
      exact ⟨⟨q, live⟩, named, own⟩
    · rintro ⟨⟨q, live⟩, named, own⟩
      exact ⟨_, rename_eq_ok_iff.mpr ⟨q, live, named, own, rfl⟩⟩
  · intro v listed
    have named := coherent.named_of_listed listed
    have free := coherent.find?_name listed
    obtain ⟨q, live, same⟩ := state?_eq_some_iff.mp (mem_states.mp listed)
    rw [same] at named free ⊢
    refine ⟨⟨_, remove_eq_ok_iff.mpr (.inr ⟨q, live, rfl, rfl⟩),
      available_eraseState live named⟩, ?_, ?_⟩
    · intro name d' renamed other
      obtain ⟨p, liveToo, _, _, rfl⟩ := rename_eq_ok_iff.mp renamed
      cases Option.some.inj (live.symm.trans liveToo)
      exact available_renameState live named other
    · have own : ∀ holder, d.names.find? q.name = some holder → holder = v.id :=
        fun holder held => Option.some.inj (held.symm.trans free)
      exact ⟨_, rename_eq_ok_iff.mpr ⟨q, live, named, own, rfl⟩⟩

/-- The name of a final state of the sample is free once the state is removed, and not before. -/
theorem sample_names : sample.Arises ∧ sample.stateNamed? "s" = some ⟨0, 3⟩ ∧
    (∃ v, sample.state? ⟨0, 3⟩ = some v ∧ v.state.name = "s") ∧
    sample.size = sample.states.length ∧
    (¬ ∃ d', (sample.rename ⟨0, 0⟩ "s").result = .ok d') ∧
    ∃ d', (sample.remove ⟨0, 3⟩).result = .ok (d', .applied) ∧ d'.Available "s" := by
  obtain ⟨named, _, _, size, _, renames, freed⟩ := names_invert_states sample_arises
  have listed : sample.view ⟨0, 3⟩ ⟨"s", none, some ⟨0, 0⟩⟩ ∈ sample.states := view_mem_states rfl
  refine ⟨sample_arises, rfl, (named _ _).mp rfl, size, ?_, (freed _ listed).1⟩
  rw [renames]
  rintro ⟨_, _, own⟩
  have same := own _ listed rfl
  contradiction

end BinaryAutomata.Automaton
