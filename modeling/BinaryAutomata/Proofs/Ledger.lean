import BinaryAutomata.Proofs.Summary
import BinaryAutomata.Proofs.WalkLog
import Mathlib.Logic.Function.Basic

/-! The logs of the automata of a session. Read from its beginning, the log of an automaton tells the
names of its states and which of them have roles, whatever has been tried or asked in between. -/
namespace BinaryAutomata

/-- What can be asked of an automaton that it logs. -/
inductive Query where
  | evaluate (input : String)
  | evaluateSymbols (word : List Symbol)
  | accepts (input : String)

def Automaton.ask (d : Automaton) : Query → List Event.Printed
  | .evaluate input => (d.evaluate input).printed
  | .evaluateSymbols word => (d.evaluateSymbols word).printed
  | .accepts input => (d.accepts input).printed

/-- Nothing that the log tells is changed by the line. -/
def Event.Printed.Idle (line : Event.Printed) : Prop :=
  ∀ summary : Summary, summary.follow line = summary

theorem Summary.through_of_idle {lines : List Event.Printed} (idle : ∀ line ∈ lines, line.Idle)
    (summary : Summary) : summary.through (lines.map .logged) = summary := by
  induction lines with
  | nil => rfl
  | cons line lines ih =>
    obtain ⟨first, rest⟩ := List.forall_mem_cons.mp idle
    rw [List.map_cons, through, List.foldl_cons, after, first]
    exact ih rest

namespace Automaton

variable {d : Automaton}

theorem idle_walk (read : Nat) (h : StateId) (q : State) (word : List Symbol)
    (logged : line ∈ (d.walk read h q word).printed) : line.Idle := by
  induction word generalizing read h q with
  | nil =>
    rw [printed_walk_nil, List.mem_singleton] at logged
    subst logged
    exact fun _ => rfl
  | cons s word ih =>
    cases followed : d.follow? q s with
    | none => simp [walk, followed, Report.fail, Report.printed] at logged
    | some step =>
      rw [printed_walk_cons followed] at logged
      obtain rfl | later := List.mem_cons.mp logged
      · exact fun _ => rfl
      · exact ih _ _ _ later

theorem idle_evaluateSymbols (logged : line ∈ (d.evaluateSymbols word).printed) : line.Idle := by
  unfold evaluateSymbols at logged
  split at logged
  · contradiction
  · split at logged
    · contradiction
    · exact idle_walk _ _ _ _ logged

theorem idle_evaluate (logged : line ∈ (d.evaluate input).printed) : line.Idle := by
  cases read : d.alphabet.parse input with
  | error cause =>
    rw [evaluate_of_unread read] at logged
    contradiction
  | ok word =>
    rw [evaluate_of_read read] at logged
    exact idle_evaluateSymbols logged

theorem idle_ask (query : Query) (logged : line ∈ d.ask query) : line.Idle := by
  cases query with
  | evaluate input => exact idle_evaluate logged
  | evaluateSymbols word => exact idle_evaluateSymbols logged
  | accepts input =>
    rw [ask, accepts, Report.printed_map] at logged
    exact idle_evaluate logged

end Automaton

namespace Session

/-- The logs after an operation. A clone takes over the log of the automaton that it copies. -/
def Op.logsAfter (op : Op) (session : Session) (report : Report Reply) (logs : Nat → List Line) :
    Nat → List Line :=
  match op with
  | .found _ => Function.update logs session.members.size []
  | .clone number => Function.update logs session.members.size (logs number)
  | .edit number e => Function.update logs number (logs number ++ e.lines report)

/-- The logs that the automata of a session have come to have, by operations and by what was asked
between them. -/
inductive Logged : Session → (Nat → List Line) → Prop where
  | nothing : Logged .empty fun _ => []
  | performed (before : Logged session logs)
      (performed : session.perform? op = some (next, report)) :
      Logged next (op.logsAfter session report logs)
  | asked (before : Logged session logs) (held : session.automaton? number = some d)
      (query : Query) :
      Logged session (Function.update logs number (logs number ++ (d.ask query).map .logged))

variable {session next : Session} {logs : Nat → List Line}

theorem Logged.exists_run (logged : Logged session logs) : ∃ record, Run .empty record session := by
  induction logged with
  | nothing => exact ⟨[], .refl .empty⟩
  | performed _ performed ih =>
    obtain ⟨record, run⟩ := ih
    exact ⟨_, run.perform performed⟩
  | asked _ _ _ ih => exact ih

theorem events_perform? (held : session.members[number]? = some member)
    (performed : session.perform? (.edit number e) = some (next, report)) :
    report.events = (member.automaton.edit (session.supply member.family) e).events := by
  simp only [perform?, held, Option.map_some, Option.some.injEq] at performed
  split at performed <;> cases performed <;> rfl

/-- An edit logs what is new if it is carried out, and nothing if it is refused. -/
theorem Run.edit_logged (run : Run .empty record session)
    (held : session.members[number]? = some member) (e : Edit) :
    ∃ next report, session.perform? (.edit number e) = some (next, report) ∧
      ((∃ cause, report = .fail cause ∧ next = session) ∨
        ∃ d reply, member.automaton.Edited (session.supply member.family) e d reply ∧
          report = ⟨member.automaton.news (session.supply member.family) e, .ok reply⟩ ∧
          next = session.commit number member d reply) := by
  obtain ⟨coherent, room⟩ := (run.lineage held).2.sound
  obtain ⟨next, ⟨events, result⟩, performed, outcome⟩ := run.edit_cases held e
  have logged : events = _ := events_perform? held performed
  refine ⟨next, _, performed, ?_⟩
  obtain ⟨cause, refused, rfl, rfl⟩ | ⟨d, reply, edited, rfl, rfl⟩ := outcome
  · left
    have failed := coherent.edit_eq_error_iff.mpr refused
    rw [logged, member.automaton.quiet_edit _ e cause failed]
    exact ⟨cause, rfl, rfl⟩
  · right
    rw [logged, edited.events_eq coherent room]
    exact ⟨d, reply, edited, rfl, rfl⟩

theorem automaton?_push (session : Session) (member : Member) (supplies : Array Nat) (number : Nat) :
    automaton? ⟨session.members.push member, supplies⟩ number =
      if number = session.members.size then some member.automaton else session.automaton? number := by
  simp only [automaton?, Array.getElem?_push]
  split <;> rfl

/-- The log of every automaton tells its names and roles. -/
def Told (session : Session) (logs : Nat → List Line) : Prop :=
  ∀ number d, session.automaton? number = some d → Summary.read (logs number) = d.summary

namespace Told

variable {target : Nat} {member : Member}

theorem push (told : Told session logs)
    (tells : Summary.read lines = member.automaton.summary) (supplies : Array Nat) :
    Told ⟨session.members.push member, supplies⟩
      (Function.update logs session.members.size lines) := by
  intro number d held
  rw [automaton?_push] at held
  rw [Function.update_apply]
  split at held
  · cases held
    rw [if_pos ‹_›, tells]
  · rw [if_neg ‹_›, told number d held]

theorem of_idle {lines : List Event.Printed} (told : Told session logs)
    (idle : ∀ line ∈ lines, line.Idle) (target : Nat) :
    Told session (Function.update logs target (logs target ++ lines.map .logged)) := by
  intro number d held
  rw [Function.update_apply]
  split
  · subst number
    rw [Summary.read, Summary.through_append, Summary.through_of_idle idle]
    exact told target d held
  · exact told number d held

theorem commit (told : Told session logs) (found : session.members[target]? = some member)
    (tells : member.automaton.summary.through lines = d.summary) (reply : Reply) :
    Told (session.commit target member d reply)
      (Function.update logs target (logs target ++ lines)) := by
  intro number other held
  have before : session.automaton? target = some member.automaton := by simp [automaton?, found]
  rw [automaton?, member_commit found] at held
  rw [Function.update_apply]
  split at held
  · cases held
    rw [if_pos ‹_›, ← tells, ← told target _ before]
    exact Summary.through_append _ _ _
  · rw [if_neg ‹_›, told number other held]

/-- Whatever an operation changes, the logs tell it. -/
theorem performed (told : Told session logs) (run : Run .empty record session)
    (performed : session.perform? op = some (next, report)) :
    Told next (op.logsAfter session report logs) := by
  cases op with
  | found alphabet =>
    cases performed
    exact told.push rfl _
  | clone source =>
    obtain ⟨member, copied, same⟩ := Option.map_eq_some_iff.mp performed
    cases same
    exact told.push (told source _ (congrArg (Option.map Member.automaton) copied)) _
  | edit target e =>
    obtain ⟨member, found, _⟩ := Option.map_eq_some_iff.mp performed
    obtain ⟨coherent, room⟩ := (run.lineage found).2.sound
    obtain ⟨_, _, performedToo, outcome⟩ := run.edit_logged found e
    cases Option.some.inj (performed.symm.trans performedToo)
    obtain ⟨cause, rfl, rfl⟩ | ⟨d, reply, edited, rfl, rfl⟩ := outcome
    · have silent : e.lines (Report.fail cause : Report Reply) = [] := rfl
      have idle : ∀ line ∈ ([] : List Event.Printed), line.Idle := nofun
      rw [Op.logsAfter, silent]
      exact told.of_idle idle target
    · exact told.commit found (edited.summary_eq coherent room) reply

end Told

theorem Logged.told (logged : Logged session logs) : Told session logs := by
  induction logged with
  | nothing =>
    intro number d held
    simp [automaton?, Session.empty] at held
  | performed before performed ih =>
    obtain ⟨record, run⟩ := before.exists_run
    exact ih.performed run performed
  | asked _ _ query ih =>
    exact ih.of_idle (fun line => Automaton.idle_ask query) _

/-- Whatever has been done and asked, tried and refused: the log of an automaton, read from its
beginning with each renaming noted where it happened, tells its states by index and name, the name of
its initial state and those of its final states in order. An edit that fails or renames logs nothing; one
that finds nothing to do logs a single warning, its notice, and one that adds a state warns of nothing.
The initial role is logged as taken from the state that has it, and a role is logged under the name of a
live state. -/
theorem logs_tell_automata (logged : Logged session logs)
    (held : session.automaton? number = some d) :
    Summary.read (logs number) =
      ⟨d.states.map fun v => (v.id.index, v.state.name), d.initialName?, d.finalNames⟩ ∧
    ∀ e, ∃ next report d', session.perform? (.edit number e) = some (next, report) ∧
      next.automaton? number = some d' ∧
      (∀ line ∈ report.printed, line.message = "cleared initial state" → ∃ name,
        d.initialName? = some name ∧ line = ⟨.debug, "cleared initial state", [("state", .text name)]⟩) ∧
      (∀ line ∈ report.printed, line.message ∈ roleTexts → ∃ name,
        line.fields = [("state", .text name)] ∧ name ≠ "" ∧ ∃ v ∈ d'.states, v.state.name = name) ∧
      (∀ cause, report.result = .error cause → report.printed = []) ∧
      (∀ notice, report.result = .ok (.outcome (.unchanged notice)) →
        ∃ fields, report.printed = [⟨.warn, notice.message, fields⟩]) ∧
      (∀ h name, e = .rename h name → report.printed = []) ∧
      (∀ draft, e = .add draft → ∀ line ∈ report.printed, line.level ≠ .warn) := by
  refine ⟨logged.told number d held, fun e => ?_⟩
  obtain ⟨record, run⟩ := logged.exists_run
  obtain ⟨member, found, rfl⟩ := Option.map_eq_some_iff.mp held
  obtain ⟨coherent, room⟩ := (run.lineage found).2.sound
  obtain ⟨next, report, performed, ⟨cause, rfl, rfl⟩ | ⟨d, reply, edited, rfl, rfl⟩⟩ :=
    run.edit_logged found e
  · refine ⟨_, _, _, performed, held, ?_⟩
    simp [Report.fail, Report.printed]
  · refine ⟨_, _, d, performed, by simp [automaton?, member_commit found], ?_, ?_, ?_, ?_, ?_, ?_⟩
    · intro line listed cleared
      obtain ⟨event, told, rfl⟩ := List.mem_map.mp listed
      obtain ⟨name, rfl⟩ := Event.eq_clearedInitial cleared
      exact ⟨name, Automaton.initialName?_of_cleared told, rfl⟩
    · intro line listed tells
      obtain ⟨event, told, rfl⟩ := List.mem_map.mp listed
      obtain ⟨name, role, fields⟩ := Event.role?_of_text tells
      obtain ⟨h, live, rfl⟩ := edited.role_live coherent room told role
      obtain ⟨q, live⟩ := Automaton.contains_iff.mp live
      rw [Automaton.nameOf_eq live] at fields
      exact ⟨_, fields, (edited.coherent coherent room).named live, _,
        Automaton.view_mem_states live, rfl⟩
    · rintro cause ⟨⟩
    · intro notice unchanged
      exact ((edited.unchanged_iff notice).mp (Except.ok.inj unchanged)).news_eq _
    · rintro h name rfl
      rfl
    · rintro draft rfl line listed
      obtain ⟨event, told, rfl⟩ := List.mem_map.mp listed
      have level : event.printed.level = .debug := Automaton.level_of_mem_news_add told
      rw [level]
      decide

/-- A session whose state has taken over the initial role, then got another name, and is now alone. -/
def renamed : Session where
  members := #[⟨0, 0, .standard, ⟨#[none, some ⟨"r", none, none⟩]⟩, ⟨[("r", ⟨0, 1⟩)]⟩,
    some ⟨0, 1⟩, []⟩]
  supplies := #[2]

/-- The log names the state as it was called when it took the role, and yet tells it by its new name. -/
theorem renamed_told : ∃ logs, Logged renamed logs ∧
    logs 0 = [.logged ⟨.debug, "added state", [("state", .text "p"), ("id", .text "#0")]⟩,
      .logged ⟨.debug, "set initial state", [("state", .text "p")]⟩,
      .logged ⟨.debug, "added final state", [("state", .text "p")]⟩,
      .logged ⟨.debug, "added state", [("state", .text "q"), ("id", .text "#1")]⟩,
      .logged ⟨.debug, "evaluated input",
        [("symbols", .count 0), ("last", .text "p"), ("verdict", .text "accepted")]⟩,
      .logged ⟨.debug, "cleared initial state", [("state", .text "p")]⟩,
      .logged ⟨.debug, "set initial state", [("state", .text "q")]⟩,
      .renamed 1 "r",
      .logged ⟨.warn, "state is already the initial state", [("state", .text "r")]⟩,
      .logged ⟨.debug, "removed state", [("state", .text "p"), ("id", .text "#0")]⟩] ∧
    Summary.read (logs 0) = ⟨[(1, "r")], some "r", []⟩ ∧
    ∃ report, renamed.perform? (.edit 0 (.rename ⟨0, 1⟩ "")) = some (renamed, report) ∧
      report.result = .error .emptyStateName ∧ report.printed = [] := by
  have found := Logged.nothing.performed
    (show Session.empty.perform? (.found .standard) = some (_, _) from rfl)
  have first := found.performed
    (show Session.perform? _ (.edit 0 (.add ⟨"p", none, none, true, true⟩)) = some (_, _) from rfl)
  have second := first.performed
    (show Session.perform? _ (.edit 0 (.add ⟨"q", none, none, false, false⟩)) = some (_, _) from rfl)
  have asked := second.asked (show Session.automaton? _ 0 = some _ from rfl) (.evaluate "")
  have taken := asked.performed
    (show Session.perform? _ (.edit 0 (.setInitial ⟨0, 1⟩)) = some (_, _) from rfl)
  have named := taken.performed
    (show Session.perform? _ (.edit 0 (.rename ⟨0, 1⟩ "r")) = some (_, _) from rfl)
  have kept := named.performed
    (show Session.perform? _ (.edit 0 (.setInitial ⟨0, 1⟩)) = some (_, _) from rfl)
  have alone := kept.performed
    (show Session.perform? _ (.edit 0 (.remove ⟨0, 0⟩)) = some (renamed, _) from rfl)
  obtain ⟨told, edits⟩ := logs_tell_automata alone (show renamed.automaton? 0 = some _ from rfl)
  obtain ⟨_, report, _, performed, _, _, _, quiet, _⟩ := edits (.rename ⟨0, 1⟩ "")
  cases performed
  exact ⟨_, alone, rfl, told, _, rfl, rfl, quiet _ rfl⟩

end Session
end BinaryAutomata
