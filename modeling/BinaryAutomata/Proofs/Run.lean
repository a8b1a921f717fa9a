import BinaryAutomata.Proofs.Bookkeeping
import BinaryAutomata.Session

/-! Runs of a session, and the history of each automaton in them: the edits of it that succeeded,
after those of the automaton it was cloned from. Records and histories have the newest entry first. -/
namespace BinaryAutomata

structure Entry where
  op : Session.Op
  report : Report Reply

/-- An edit that succeeded. -/
structure Deed where
  edit : Edit
  reply : Reply
  deriving DecidableEq

namespace Session

/-- Operations carried out one after the other, with what they answered. -/
inductive Run : Session → List Entry → Session → Prop where
  | refl (session) : Run session [] session
  | perform : Run start record session → session.perform? op = some (next, report) →
      Run start (⟨op, report⟩ :: record) next

/-- What led to the automaton `number`. A clone inherits what led to its original. -/
def history : List Entry → Nat → List Deed
  | [], _ => []
  | ⟨.found _, ⟨_, .ok (.created fresh)⟩⟩ :: earlier, number =>
      if number = fresh then [] else history earlier number
  | ⟨.clone source, ⟨_, .ok (.created fresh)⟩⟩ :: earlier, number =>
      history earlier (if number = fresh then source else number)
  | ⟨.edit target edit, ⟨_, .ok reply⟩⟩ :: earlier, number =>
      if number = target then ⟨edit, reply⟩ :: history earlier number else history earlier number
  | _ :: earlier, number => history earlier number

def family? (session : Session) (number : Nat) : Option Nat :=
  (session.members[number]?).map (·.family)

/-- What an operation does to a session, and its answer. -/
inductive Performed (session : Session) : Op → Session → Except Error Reply → Prop where
  | found : Performed session (.found alphabet) (session.found alphabet)
      (.ok (.created session.members.size))
  | clone (held : session.members[source]? = some member) : Performed session (.clone source)
      { session with members := session.members.push member } (.ok (.created session.members.size))
  | refused (held : session.members[number]? = some member) :
      Performed session (.edit number e) session (.error error)
  | edited (held : session.members[number]? = some member)
      (edited : member.automaton.Edited (session.supply member.family) e d reply) :
      Performed session (.edit number e) (session.commit number member d reply) (.ok reply)

theorem performed_of_perform? {session : Session}
    (performed : session.perform? op = some (next, report)) :
    Performed session op next report.result := by
  cases op with
  | found alphabet => cases performed; exact .found
  | clone source =>
    obtain ⟨member, held, same⟩ := Option.map_eq_some_iff.mp performed
    cases same
    exact .clone held
  | edit number e =>
    obtain ⟨member, held, same⟩ := Option.map_eq_some_iff.mp performed
    cases outcome : (member.automaton.edit (session.supply member.family) e).result with
    | error cause =>
      simp only [outcome] at same
      cases same
      exact .refused held
    | ok done =>
      simp only [outcome] at same
      cases same
      exact .edited held (Automaton.edit_eq_ok_iff.mp outcome)

theorem perform?_of_edited {session : Session} (held : session.members[number]? = some member)
    (edited : member.automaton.Edited (session.supply member.family) e d reply) :
    ∃ report, session.perform? (.edit number e) = some (session.commit number member d reply, report) ∧
      report.result = .ok reply := by
  have done := Automaton.edit_eq_ok_iff.mpr edited
  exact ⟨⟨(member.automaton.edit (session.supply member.family) e).events, .ok reply⟩,
    by simp only [perform?, held, Option.map_some, done], rfl⟩

end Session

/-- How an automaton came about, seen from it alone. Its family issues index `next` or a later one,
for clones may have drawn from the supply in between. -/
inductive Lineage : Automaton → List Deed → Nat → Prop where
  | empty : Lineage (.empty tag alphabet) [] next
  | waited (before : Lineage d history next) (passed : next ≤ later) : Lineage d history later
  | edited (before : Lineage d history next) (edited : d.Edited next e d' reply) :
      Lineage d' (⟨e, reply⟩ :: history) (reply.supplyAfter next)

theorem Lineage.sound (lineage : Lineage d history next) : d.Coherent ∧ d.arena.size ≤ next := by
  induction lineage with
  | empty => exact ⟨Automaton.empty_coherent _ _, Nat.zero_le _⟩
  | waited before passed ih => exact ⟨ih.1, Nat.le_trans ih.2 passed⟩
  | edited before edited ih => exact ⟨edited.coherent ih.1 ih.2, edited.size_le ih.2⟩

namespace Session

theorem supply_found (session : Session) (alphabet : Alphabet) (family : Nat) :
    (session.found alphabet).supply family = session.supply family := by
  simp only [found, supply, Array.getElem?_push]
  split
  · subst family; simp
  · rfl

theorem size_supplies_commit (session : Session) (number : Nat) (member : Member) (d : Automaton)
    (reply : Reply) : (session.commit number member d reply).supplies.size = session.supplies.size := by
  cases reply <;> simp [commit]

theorem member_commit {session : Session} (held : session.members[number]? = some original)
    (member : Member) (d : Automaton) (reply : Reply) (other : Nat) :
    (session.commit number member d reply).members[other]? =
      if other = number then some { member with automaton := d } else session.members[other]? := by
  obtain ⟨bound, _⟩ := Array.getElem?_eq_some_iff.mp held
  by_cases same : other = number
  · subst other; simp [commit, bound]
  · simp [commit, same, Ne.symm same]

theorem supply_commit {session : Session} {member : Member}
    (known : member.family < session.supplies.size) (number : Nat) (d : Automaton) (reply : Reply)
    (family : Nat) : (session.commit number member d reply).supply family =
      if family = member.family then reply.supplyAfter (session.supply family)
      else session.supply family := by
  cases reply with
  | issued h =>
    by_cases same : family = member.family
    · subst family; simp [commit, supply, Reply.supplyAfter, known]
    · simp [commit, supply, same, Ne.symm same]
  | _ => simp [commit, supply, Reply.supplyAfter]

/-- In a run from nothing, every automaton has come about in the way its history tells. -/
theorem Run.lineage (run : Run .empty record session)
    (held : session.members[number]? = some member) : member.family < session.supplies.size ∧
      Lineage member.automaton (history record number) (session.supply member.family) := by
  induction run generalizing number member with
  | refl => simp [Session.empty] at held
  | @perform record session op next report before performed ih =>
    obtain ⟨events, result⟩ := report
    cases performed_of_perform? performed with
    | found =>
      simp only [found, Array.getElem?_push] at held
      by_cases fresh : number = session.members.size
      · subst number
        cases (if_pos rfl).symm.trans held
        simpa [found, history] using Lineage.empty
      · rw [if_neg fresh] at held
        obtain ⟨known, lineage⟩ := ih held
        simp only [history, supply_found, if_neg fresh]
        exact ⟨by simp [found]; omega, lineage⟩
    | clone copied =>
      simp only [Array.getElem?_push] at held
      by_cases fresh : number = session.members.size
      · subst number
        cases (if_pos rfl).symm.trans held
        simp only [history, if_pos]
        exact ih copied
      · rw [if_neg fresh] at held
        simp only [history, if_neg fresh]
        exact ih held
    | refused => simpa [history] using ih held
    | @edited target original e d reply found edited =>
      obtain ⟨known, lineage⟩ := ih found
      rw [member_commit found] at held
      rw [size_supplies_commit, supply_commit known]
      by_cases same : number = target
      · subst number
        cases (if_pos rfl).symm.trans held
        simpa [history, known] using lineage.edited edited
      · rw [if_neg same] at held
        obtain ⟨knownToo, other⟩ := ih held
        simp only [history, if_neg same]
        refine ⟨knownToo, ?_⟩
        split
        · rename_i kin
          have passed := edited.le_supplyAfter
          rw [← kin] at passed
          exact other.waited passed
        · exact other

theorem Run.comes_about (run : Run .empty record session)
    (held : session.automaton? number = some d) :
    ∃ next, Lineage d (history record number) next := by
  obtain ⟨member, found, rfl⟩ := Option.map_eq_some_iff.mp held
  exact ⟨_, (run.lineage found).2⟩

/-- Carries out operations in turn and adds them to the record; gives up at one that names no
automaton. -/
def replay (session : Session) (record : List Entry) : List Op → Option (List Entry × Session)
  | [] => some (record, session)
  | op :: ops => match session.perform? op with
    | none => none
    | some (next, report) => next.replay (⟨op, report⟩ :: record) ops

theorem Run.replay (run : Run start record session)
    (replayed : session.replay record ops = some (longer, final)) : Run start longer final := by
  induction ops generalizing session record with
  | nil =>
    cases replayed
    exact run
  | cons op ops ih =>
    simp only [Session.replay] at replayed
    split at replayed
    · contradiction
    · rename_i performed
      exact ih (run.perform performed) replayed

end Session

/-- Some session has come to hold the automaton. -/
def Automaton.Arises (d : Automaton) : Prop :=
  ∃ record session number, Session.Run .empty record session ∧ session.automaton? number = some d

theorem Automaton.Arises.coherent {d : Automaton} (arises : d.Arises) : d.Coherent := by
  obtain ⟨record, session, number, run, held⟩ := arises
  obtain ⟨next, lineage⟩ := run.comes_about held
  exact lineage.sound.1

theorem Automaton.arises_of_replay (ops : List Session.Op) (number : Nat)
    (held : ((Session.empty.replay [] ops).bind fun (_, session) => session.automaton? number) =
      some d) : d.Arises := by
  obtain ⟨⟨record, session⟩, replayed, held⟩ := Option.bind_eq_some_iff.mp held
  exact ⟨record, session, number, Session.Run.replay (.refl .empty) replayed, held⟩

/-- Slot 2 of the arena is a gap and so is slot 1, whose state has left an edge behind. -/
def Automaton.sample : Automaton where
  tag := 0
  alphabet := .standard
  arena := ⟨#[some ⟨"p", some ⟨0, 3⟩, some ⟨0, 1⟩⟩, none, none, some ⟨"s", none, some ⟨0, 0⟩⟩]⟩
  names := ⟨[("s", ⟨0, 3⟩), ("p", ⟨0, 0⟩)]⟩
  initial := some ⟨0, 0⟩
  finals := [⟨0, 3⟩]

theorem Automaton.sample_arises : sample.Arises :=
  arises_of_replay [.found .standard, .edit 0 (.add ⟨"p", none, none, true, false⟩),
    .edit 0 (.add ⟨"q", none, none, false, true⟩), .edit 0 (.connect ⟨0, 0⟩ .b ⟨0, 1⟩), .clone 0,
    .edit 1 (.add ⟨"r", none, none, false, false⟩),
    .edit 0 (.add ⟨"s", none, some ⟨0, 0⟩, false, true⟩),
    .edit 0 (.connect ⟨0, 0⟩ .a ⟨0, 3⟩), .edit 0 (.remove ⟨0, 1⟩)] 0 (by decide +kernel)

/-- The session in which the sample arises, beside a clone of it that has taken index 2. -/
def Session.sampled : Session where
  members := #[⟨0, .sample⟩, ⟨0, 0, .standard, ⟨#[some ⟨"p", none, some ⟨0, 1⟩⟩, some ⟨"q", none, none⟩,
    some ⟨"r", none, none⟩]⟩, ⟨[("r", ⟨0, 2⟩), ("q", ⟨0, 1⟩), ("p", ⟨0, 0⟩)]⟩, some ⟨0, 0⟩, [⟨0, 1⟩]⟩]
  supplies := #[4]

theorem Session.sampled_run : ∃ record, Run .empty record sampled := by
  have replayed : (empty.replay [] [.found .standard,
      .edit 0 (.add ⟨"p", none, none, true, false⟩), .edit 0 (.add ⟨"q", none, none, false, true⟩),
      .edit 0 (.connect ⟨0, 0⟩ .b ⟨0, 1⟩), .clone 0, .edit 1 (.add ⟨"r", none, none, false, false⟩),
      .edit 0 (.add ⟨"s", none, some ⟨0, 0⟩, false, true⟩), .edit 0 (.connect ⟨0, 0⟩ .a ⟨0, 3⟩),
      .edit 0 (.remove ⟨0, 1⟩)]).map Prod.snd = some sampled := by decide +kernel
  obtain ⟨⟨record, _⟩, replayed, rfl⟩ := Option.map_eq_some_iff.mp replayed
  exact ⟨record, Run.replay (.refl .empty) replayed⟩

end BinaryAutomata
