import BinaryAutomata.Proofs.Run

/-! Histories read backwards: what has happened and has not been overtaken since, the automaton that
a deed was done to, and the past that an automaton shares with the one that it stems from. -/
namespace BinaryAutomata

/-- The history has an `event`, and nothing that `ends` it since. -/
def Since (history : List Deed) (event ends : Deed → Prop) : Prop :=
  ∃ later deed earlier, history = later ++ deed :: earlier ∧ event deed ∧
    ∀ other ∈ later, ¬ ends other

section
variable {event ends : Deed → Prop}

@[simp] theorem not_since_nil : ¬ Since [] event ends := by simp [Since]

theorem since_cons : Since (deed :: history) event ends ↔
    event deed ∨ (Since history event ends ∧ ¬ ends deed) := by
  constructor
  · rintro ⟨later, middle, earlier, split, happened, spared⟩
    cases later with
    | nil => exact .inl ((List.cons.inj split).1 ▸ happened)
    | cons newest later =>
      obtain ⟨rfl, rest⟩ := List.cons.inj split
      obtain ⟨kept, spared⟩ := List.forall_mem_cons.mp spared
      exact .inr ⟨⟨later, middle, earlier, rest, happened, spared⟩, kept⟩
  · rintro (happened | ⟨⟨later, middle, earlier, rfl, happened, spared⟩, kept⟩)
    · exact ⟨[], deed, history, rfl, happened, by simp⟩
    · exact ⟨deed :: later, middle, earlier, rfl, happened, List.forall_mem_cons.mpr ⟨kept, spared⟩⟩

theorem Since.append (since : Since history event ends) (spared : ∀ deed ∈ later, ¬ ends deed) :
    Since (later ++ history) event ends := by
  induction later with
  | nil => exact since
  | cons deed later ih =>
    obtain ⟨kept, spared⟩ := List.forall_mem_cons.mp spared
    exact since_cons.mpr (.inr ⟨ih spared, kept⟩)

/-- There is at most one value that was given last. -/
theorem Since.unique (gives : Deed → α → Prop)
    (once : ∀ {deed a b}, gives deed a → gives deed b → a = b)
    (since : Since history (gives · a) fun other => ∃ c, gives other c)
    (sinceToo : Since history (gives · b) fun other => ∃ c, gives other c) : a = b := by
  induction history with
  | nil => exact absurd since not_since_nil
  | cons deed history ih =>
    obtain given | ⟨since, other⟩ := since_cons.mp since
    · obtain givenToo | ⟨_, other⟩ := since_cons.mp sinceToo
      · exact once given givenToo
      · exact absurd ⟨_, given⟩ other
    · obtain givenToo | ⟨sinceToo, _⟩ := since_cons.mp sinceToo
      · exact absurd ⟨_, givenToo⟩ other
      · exact ih since sinceToo

end

/-- Every deed was done to an automaton that had come about by those before it. -/
theorem Lineage.performed (lineage : Lineage d (later ++ deed :: earlier) next) :
    ∃ before supply after, Lineage before earlier supply ∧
      before.Edited supply deed.edit after deed.reply := by
  generalize whole : later ++ deed :: earlier = history at lineage
  induction lineage generalizing later with
  | empty => simp at whole
  | waited before passed ih => exact ih whole
  | edited before edited ih =>
    cases later with
    | nil =>
      obtain ⟨rfl, rfl⟩ := List.cons.inj whole
      exact ⟨_, _, _, before, edited⟩
    | cons newest later => exact ih (List.cons.inj whole).2

namespace Session

/-- The automaton that `number` stems from, as it was numbered before the record began. One made
within the record, and not by cloning, stems from none. -/
def ancestor? : List Entry → Nat → Option Nat
  | [], number => some number
  | ⟨.found _, ⟨_, .ok (.created fresh)⟩⟩ :: earlier, number =>
      if number = fresh then none else ancestor? earlier number
  | ⟨.clone source, ⟨_, .ok (.created fresh)⟩⟩ :: earlier, number =>
      ancestor? earlier (if number = fresh then source else number)
  | _ :: earlier, number => ancestor? earlier number

theorem history_append (later record : List Entry) (number : Nat) :
    history (later ++ record) number =
      history later number ++ ((ancestor? later number).map (history record)).getD [] := by
  fun_induction history later number <;> grind [history, ancestor?]

/-- An automaton stems from itself, for those made later get later numbers. -/
theorem Run.ancestor?_eq_self (run : Run start later final)
    (inside : number < start.members.size) :
    number < final.members.size ∧ ancestor? later number = some number := by
  induction run with
  | refl => exact ⟨inside, rfl⟩
  | @perform later session op next report before performed ih =>
    obtain ⟨inside, stems⟩ := ih
    obtain ⟨events, result⟩ := report
    have grown : number < session.members.size + 1 := Nat.lt_succ_of_lt inside
    have older : number ≠ session.members.size := Nat.ne_of_lt inside
    cases performed_of_perform? performed with
    | found => exact ⟨by simpa [found] using grown, by simpa [ancestor?, older] using stems⟩
    | clone _ => exact ⟨by simpa using grown, by simpa [ancestor?, older] using stems⟩
    | refused _ => exact ⟨inside, by simpa [ancestor?] using stems⟩
    | edited _ _ => exact ⟨by simpa [commit] using inside, by simpa [ancestor?] using stems⟩

end Session
end BinaryAutomata
