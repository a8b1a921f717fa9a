import BinaryAutomata.Proofs.Atomicity
import BinaryAutomata.Proofs.InStep

/-! The course of one automaton from a given moment on: the edits of it that were asked for, with their
answers, seen from it alone. What is done to other automata shows in the supply of indices at most.
Dealings have the newest first. -/
namespace BinaryAutomata

/-- An edit that was asked for, and its answer. -/
structure Dealing where
  edit : Edit
  answer : Except Error Reply

namespace Dealing

def issued? (dealing : Dealing) : Option StateId :=
  match dealing.answer with
  | .ok reply => reply.issued?
  | .error _ => none

def relabel (f : StateId → StateId) : Dealing → Dealing
  | ⟨e, .ok reply⟩ => ⟨e.relabel f, .ok (reply.relabel f)⟩
  | ⟨e, .error cause⟩ => ⟨e.relabel f, .error (cause.relabel f)⟩

theorem issued?_relabel (f : StateId → StateId) (dealing : Dealing) :
    (dealing.relabel f).issued? = dealing.issued?.map f := by
  obtain ⟨e, cause | reply⟩ := dealing
  · rfl
  · cases reply <;> rfl

end Dealing

/-- The handles that the adds among the dealings returned, in the order of the adds. -/
def returned (dealings : List Dealing) : List StateId := dealings.reverse.filterMap (·.issued?)

theorem returned_cons (dealing : Dealing) (dealings : List Dealing) :
    returned (dealing :: dealings) = returned dealings ++ dealing.issued?.toList := by
  cases issued : dealing.issued? <;> simp [returned, List.filterMap_append, issued]

theorem getElem?_returned_add (e : Edit) (h : StateId) (dealings : List Dealing) :
    (returned (⟨e, .ok (.issued h)⟩ :: dealings))[(returned dealings).length]? = some h := by
  simp [returned_cons, Dealing.issued?, Reply.issued?]

theorem returned_relabel (f : StateId → StateId) (dealings : List Dealing) :
    returned (dealings.map (·.relabel f)) = (returned dealings).map f := by
  simp only [returned, ← List.map_reverse, List.filterMap_map, List.map_filterMap]
  congr 1
  funext dealing
  exact dealing.issued?_relabel f

theorem returned_prefix (earlier : before <:+ dealings) : returned before <+: returned dealings :=
  (List.reverse_prefix.mpr earlier).filterMap _

/-- How an automaton fares from when its family would issue index `base`. Clones may draw from the
supply in between. -/
inductive Course (d : Automaton) (base : Nat) : List Dealing → Automaton → Nat → Prop where
  | start : Course d base [] d base
  | waited (before : Course d base dealings now next) (passed : next ≤ later) :
      Course d base dealings now later
  | refused (before : Course d base dealings now next) (refused : now.Refused next e cause) :
      Course d base (⟨e, .error cause⟩ :: dealings) now next
  | edited (before : Course d base dealings now next) (edited : now.Edited next e after reply) :
      Course d base (⟨e, .ok reply⟩ :: dealings) after (reply.supplyAfter next)

namespace Course

variable {d now : Automaton} {base next : Nat} {dealings : List Dealing}

theorem sound (course : Course d base dealings now next) (coherent : d.Coherent)
    (room : d.arena.size ≤ base) : now.Coherent ∧ now.arena.size ≤ next := by
  induction course with
  | start => exact ⟨coherent, room⟩
  | waited before passed ih => exact ⟨ih.1, Nat.le_trans ih.2 passed⟩
  | refused before refused ih => exact ih
  | edited before edited ih => exact ⟨edited.coherent ih.1 ih.2, edited.size_le ih.2⟩

theorem tag_eq (course : Course d base dealings now next) : now.tag = d.tag := by
  induction course with
  | start => rfl
  | waited _ _ ih | refused _ _ ih => exact ih
  | edited _ edited ih => exact edited.tag_eq.trans ih

theorem le_next (course : Course d base dealings now next) : base ≤ next := by
  induction course with
  | start => exact Nat.le_refl _
  | waited _ passed ih => exact Nat.le_trans ih passed
  | refused _ _ ih => exact ih
  | edited _ edited ih => exact Nat.le_trans ih edited.le_supplyAfter

/-- Every add returns an index beyond those that were returned before. -/
theorem returned_bounds (course : Course d base dealings now next) :
    (returned dealings).Pairwise (fun g h => g.index < h.index) ∧
      ∀ h ∈ returned dealings, h.owner = d.tag ∧ base ≤ h.index ∧ h.index < next := by
  induction course with
  | start => simp [returned]
  | waited before passed ih =>
    refine ⟨ih.1, fun h member => ?_⟩
    obtain ⟨own, above, below⟩ := ih.2 h member
    exact ⟨own, above, Nat.lt_of_lt_of_le below passed⟩
  | refused before refused ih => simpa [returned_cons, Dealing.issued?] using ih
  | @edited dealings now next e after reply before edited ih =>
    obtain ⟨ascending, bounds⟩ := ih
    rw [returned_cons]
    cases issued : Dealing.issued? ⟨e, .ok reply⟩ with
    | none =>
      rw [Option.toList_none, List.append_nil]
      refine ⟨ascending, fun h member => ?_⟩
      obtain ⟨own, above, below⟩ := bounds h member
      exact ⟨own, above, Nat.lt_of_lt_of_le below edited.le_supplyAfter⟩
    | some h =>
      have origin : h = ⟨d.tag, next⟩ ∧ reply.supplyAfter next = next + 1 := by
        cases edited with
        | add => cases issued; exact ⟨by rw [before.tag_eq], rfl⟩
        | _ => contradiction
      obtain ⟨rfl, supply⟩ := origin
      rw [Option.toList_some, supply]
      simp only [List.pairwise_append, List.pairwise_singleton, List.mem_append, List.mem_singleton]
      refine ⟨⟨ascending, trivial, ?_⟩, ?_⟩
      · rintro g member _ rfl
        exact (bounds g member).2.2
      · rintro g (member | rfl)
        · obtain ⟨own, above, below⟩ := bounds g member
          exact ⟨own, above, Nat.lt_succ_of_lt below⟩
        · exact ⟨rfl, before.le_next, Nat.lt_succ_self _⟩

/-- No add has found the supply exhausted while there is an index left. -/
theorem unexhausted (course : Course d base dealings now next) (left : next < Automaton.supplyLimit) :
    ∀ dealing ∈ dealings, dealing.answer ≠ .error .tooManyStates := by
  induction course with
  | start => simp
  | waited before passed ih => exact ih (Nat.lt_of_le_of_lt passed left)
  | refused before refused ih =>
    refine List.forall_mem_cons.mpr ⟨fun exhausted => ?_, ih left⟩
    exact Nat.not_lt.mpr (refused.supplyLimit_le (Except.error.inj exhausted)) left
  | edited before edited ih =>
    have before := ih (Nat.lt_of_le_of_lt edited.le_supplyAfter left)
    exact List.forall_mem_cons.mpr ⟨nofun, before⟩

theorem eq_start (course : Course d base [] now next) : now = d := by
  generalize none : [] = dealings at course
  induction course with
  | start => rfl
  | waited _ _ ih => exact ih none
  | refused | edited => contradiction

/-- The newest dealing and the course before it. -/
theorem newest (course : Course d base (⟨e, answer⟩ :: dealings) now next) :
    ∃ before supply, Course d base dealings before supply ∧ before.Answered supply e answer now := by
  generalize whole : ⟨e, answer⟩ :: dealings = all at course
  induction course with
  | start => contradiction
  | waited _ _ ih => exact ih whole
  | refused before refused ih =>
    obtain ⟨⟨rfl, rfl⟩, rfl⟩ : (_ = _ ∧ _ = _) ∧ _ = _ := by simpa using whole
    exact ⟨_, _, before, .refused refused⟩
  | edited before edited ih =>
    obtain ⟨⟨rfl, rfl⟩, rfl⟩ : (_ = _ ∧ _ = _) ∧ _ = _ := by simpa using whole
    exact ⟨_, _, before, .edited edited⟩

end Course

/-- The entry as a dealing of the automaton `number`, if it is one. -/
def Entry.dealing? (number : Nat) (entry : Entry) : Option Dealing :=
  match entry.op with
  | .edit target e => if target = number then some ⟨e, entry.report.result⟩ else none
  | _ => none

namespace Session

/-- The dealings of the automaton `number`. Unlike its history they include the edits that were
refused, and nothing of an automaton that it was cloned from. -/
def dealingsWith (number : Nat) (record : List Entry) : List Dealing :=
  record.filterMap (·.dealing? number)

/-- In any run an automaton takes its course by its own dealings. -/
theorem Run.course {start final : Session} {member : Member} (run : Run .empty record start)
    (held : start.members[number]? = some member) (longer : Run start later final) :
    ∃ now, final.members[number]? = some ⟨member.family, now⟩ ∧
      Course member.automaton (start.supply member.family) (dealingsWith number later) now
        (final.supply member.family) := by
  induction longer with
  | refl => exact ⟨_, held, .start⟩
  | @perform later session op next report before performed ih =>
    obtain ⟨now, found, course⟩ := ih
    have whole := run.trans before
    have step := performed_of_perform? performed
    cases dealing : Entry.dealing? number ⟨op, report⟩ with
    | none =>
      rw [dealingsWith, List.filterMap_cons_none dealing]
      obtain kept | ⟨e, d, reply, rfl, _⟩ := step.keeps found
      · exact ⟨now, kept, course.waited (whole.supply_le step _)⟩
      · simp [Entry.dealing?] at dealing
    | some dealt =>
      rw [dealingsWith, List.filterMap_cons_some dealing]
      cases op with
      | found | clone => contradiction
      | edit target e =>
        obtain ⟨rfl, same⟩ := Option.ite_none_right_eq_some.mp dealing
        cases same
        obtain ⟨after, answer, performedToo, outcome⟩ := whole.edit_cases found e
        cases Option.some.inj (performed.symm.trans performedToo)
        obtain ⟨cause, refused, same, rfl⟩ | ⟨d, reply, edited, same, rfl⟩ := outcome
        · simp only [same]
          exact ⟨now, found, course.refused refused⟩
        · simp only [same]
          refine ⟨d, by rw [member_commit found, if_pos rfl], ?_⟩
          rw [supply_commit (whole.lineage found).1, if_pos rfl]
          exact course.edited edited

end Session
end BinaryAutomata
