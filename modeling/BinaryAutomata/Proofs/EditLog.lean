import BinaryAutomata.Proofs.Abstraction
import BinaryAutomata.Proofs.Atomicity

/-! What edits log. One that fails logs nothing, and one that finds nothing to do logs a warning and no
more. Any other logs what it did, and the roles it gave, under the names of the states concerned. -/
namespace BinaryAutomata

/-- If it fails, it has logged nothing. -/
def Report.Quiet (report : Report α) : Prop :=
  ∀ cause, report.result = .error cause → report.events = []

namespace Report

theorem quiet_of_done {report : Report α} (done : ∀ cause, report.result ≠ .error cause) :
    report.Quiet := fun cause failed => absurd failed (done cause)

theorem quiet_of_silent {report : Report α} (silent : report.events = []) : report.Quiet :=
  fun _ _ => silent

theorem quiet_bind {report : Report α} {next : α → Report β} (silent : report.events = [])
    (quiet : ∀ a, (next a).Quiet) : (report >>= next).Quiet := by
  intro cause failed
  obtain ⟨events, e | a⟩ := report
  · exact silent
  · cases silent
    exact quiet a cause failed

theorem quiet_map {report : Report α} (quiet : report.Quiet) (f : α → β) : (f <$> report).Quiet := by
  intro cause failed
  rw [events_map]
  obtain ⟨events, e | a⟩ := report
  · exact quiet e rfl
  · simp at failed

end Report

/-- The state that an event about a role names. -/
def Event.role? : Event → Option String
  | .clearedInitial name | .becameInitial name | .becameFinal name | .alreadyInitial name
  | .alreadyFinal name => some name
  | _ => none

/-- The texts of the lines about roles. -/
def roleTexts : List String :=
  ["cleared initial state", "set initial state", "added final state", Notice.alreadyInitial.message,
    Notice.alreadyFinal.message]

theorem Event.role?_of_text {event : Event} (tells : event.message ∈ roleTexts) :
    ∃ name, event.role? = some name ∧ event.fields = [("state", .text name)] := by
  cases event with
  | clearedInitial name | becameInitial name | becameFinal name | alreadyInitial name
  | alreadyFinal name => exact ⟨name, rfl, rfl⟩
  | _ => simp [Event.message, roleTexts, Notice.message] at tells

theorem Event.eq_clearedInitial {event : Event} (tells : event.message = "cleared initial state") :
    ∃ name, event = .clearedInitial name := by
  cases event with
  | clearedInitial name => exact ⟨name, rfl⟩
  | _ => simp [Event.message, Notice.message] at tells

namespace Automaton

variable {d d' : Automaton} {next : Nat} {e : Edit} {reply : Reply}

section
variable (d : Automaton)

@[simp] theorem events_require (h : StateId) : (d.require h).events = [] := by
  unfold require
  split <;> rfl

@[simp] theorem events_checkLive (h : StateId) : (d.checkLive h).events = [] := by
  unfold checkLive
  split <;> rfl

@[simp] theorem events_checkTarget (target : Option StateId) : (d.checkTarget target).events = [] := by
  cases target with
  | none => rfl
  | some h => exact d.events_checkLive h

@[simp] theorem events_checkName (name : String) (exempt : Option StateId) :
    (d.checkName name exempt).events = [] := by
  unfold checkName
  split
  · rfl
  · split
    · split <;> rfl
    · rfl

@[simp] theorem events_issue (next : Nat) : (d.issue next).events = [] := by
  unfold issue
  split <;> rfl

theorem quiet_add (next : Nat) (draft : Draft) : (d.add next draft).Quiet := by
  obtain ⟨name, onA, onB, isInitial, isFinal⟩ := draft
  refine Report.quiet_bind (events_checkName _ _ _) fun _ => ?_
  refine Report.quiet_bind (events_checkTarget _ _) fun _ => ?_
  refine Report.quiet_bind (events_checkTarget _ _) fun _ => ?_
  refine Report.quiet_bind (events_issue _ _) fun h => Report.quiet_of_done fun cause failed => ?_
  -- From here on the state is added, and nothing is left to fail.
  cases isInitial <;> cases isFinal <;>
    simp [Report.log, Report.bind_eq_error_iff, not_makeInitial_error, not_makeFinal_error] at failed

theorem quiet_edit (next : Nat) (e : Edit) : (d.edit next e).Quiet := by
  cases e with
  | add draft => exact Report.quiet_map (d.quiet_add next draft) _
  | remove h =>
    refine Report.quiet_map (Report.quiet_of_done fun cause => ?_) _
    unfold remove
    split <;> simp [Report.log]
  | rename h name =>
    refine Report.quiet_map (Report.quiet_bind (d.events_require h) fun q => ?_) _
    exact Report.quiet_bind (d.events_checkName name _) fun _ => Report.quiet_of_silent rfl
  | connect source s target =>
    refine Report.quiet_map (Report.quiet_bind (d.events_checkLive target) fun _ => ?_) _
    exact Report.quiet_bind (d.events_require source) fun q =>
      Report.quiet_of_done (by rintro _ ⟨⟩)
  | disconnect source s =>
    refine Report.quiet_map (Report.quiet_bind (d.events_require source) fun q => ?_) _
    exact Report.quiet_of_done (by rintro _ ⟨⟩)
  | setInitial h =>
    refine Report.quiet_map (Report.quiet_bind (d.events_checkLive h) fun _ => ?_) _
    exact Report.quiet_of_done fun _ => not_makeInitial_error
  | setFinal h =>
    refine Report.quiet_map (Report.quiet_bind (d.events_checkLive h) fun _ => ?_) _
    exact Report.quiet_of_done fun _ => not_makeFinal_error

/-- What it logs that a state of the name takes the initial role. -/
def handover (name : String) : List Event :=
  d.initialName?.toList.map .clearedInitial ++ [.becameInitial name]

/-- What an edit logs if it succeeds, `next` being the index that the family would issue. -/
def news (next : Nat) : Edit → List Event
  | .add draft => .addedState draft.name ⟨d.tag, next⟩ ::
      ((if draft.isInitial then d.handover draft.name else []) ++
        if draft.isFinal then [.becameFinal draft.name] else [])
  | .remove h => match d.find? h with
    | none => [.unknownState h]
    | some q => [.removedState q.name h]
  | .rename _ _ => []
  | .connect source s target => [.connected source s target]
  | .disconnect source s => [.disconnected source s]
  | .setInitial h =>
      if d.isInitial h then [.alreadyInitial (d.nameOf h)] else d.handover (d.nameOf h)
  | .setFinal h => [if d.isFinal h then .alreadyFinal (d.nameOf h) else .becameFinal (d.nameOf h)]

end

theorem makeInitial_of_held (holds : d.isInitial h = true) : d.makeInitial h =
    ⟨[.alreadyInitial (d.nameOf h)], .ok (d, .unchanged .alreadyInitial)⟩ := by
  simp [makeInitial, isInitial_iff.mp holds, Report.log]

theorem Coherent.makeInitial_of_unheld (coherent : d.Coherent) (lacks : d.isInitial h = false) :
    d.makeInitial h = ⟨d.handover (d.nameOf h), .ok (d.withRoles h true false, .applied)⟩ := by
  simp only [isInitial, decide_eq_false_iff_not] at lacks
  have handed : d.initial.toList.map (fun holder => .clearedInitial (d.nameOf holder)) ++
      [.becameInitial (d.nameOf h)] = d.handover (d.nameOf h) := by
    rw [handover, coherent.initialName?_eq]
    cases d.initial <;> rfl
  rw [makeInitial, if_neg lacks, ← handed]
  rfl

theorem makeFinal_of_held (holds : d.isFinal h = true) : d.makeFinal h =
    ⟨[.alreadyFinal (d.nameOf h)], .ok (d, .unchanged .alreadyFinal)⟩ := by
  simp [makeFinal, holds, Report.log]

theorem makeFinal_of_unheld (lacks : d.isFinal h = false) : d.makeFinal h =
    ⟨[.becameFinal (d.nameOf h)], .ok (d.withRoles h false true, .applied)⟩ := by
  simp [makeFinal, lacks, Report.log, withRoles]

theorem ne_next_of_live (room : d.arena.size ≤ next) (live : d.contains g = true) :
    g ≠ ⟨d.tag, next⟩ := by
  rintro rfl
  simp [contains, unheld_of_room (h := ⟨d.tag, next⟩) room] at live

namespace Coherent

/-- Another state does not change what the initial one is called. -/
theorem initialName?_insertState (coherent : d.Coherent) (room : d.arena.size ≤ next)
    (named : draft.name ≠ "") (free : d.names.find? draft.name = none) :
    (d.insertState ⟨d.tag, next⟩ draft).initialName? = d.initialName? := by
  have inserted := coherent.insertState (h := ⟨d.tag, next⟩) rfl room named free
  have rewritten := rewritten_insertState (h := ⟨d.tag, next⟩) rfl room draft
  rw [inserted.initialName?_eq, coherent.initialName?_eq]
  apply Option.map_congr
  intro g held
  exact rewritten.nameOf_of_ne (ne_next_of_live room (coherent.initial_live held))

/-- A state that is added begins without a role. -/
theorem roles_insertState (coherent : d.Coherent) (room : d.arena.size ≤ next) (draft : Draft) :
    (d.insertState ⟨d.tag, next⟩ draft).isInitial ⟨d.tag, next⟩ = false ∧
      (d.insertState ⟨d.tag, next⟩ draft).isFinal ⟨d.tag, next⟩ = false := by
  rw [Bool.eq_false_iff, Bool.eq_false_iff]
  constructor
  · intro holds
    exact ne_next_of_live room (coherent.initial_live (isInitial_iff.mp holds)) rfl
  · intro holds
    exact ne_next_of_live room (coherent.finals_live (isFinal_iff.mp holds)) rfl

theorem events_add (coherent : d.Coherent) (room : d.arena.size ≤ next)
    (added : (d.add next draft).result = .ok done) :
    (d.add next draft).events = d.news next (.add draft) := by
  obtain ⟨⟨named, free⟩, onA, onB, supplied, _⟩ := add_eq_ok_iff.mp added
  have inserted := coherent.insertState (h := ⟨d.tag, next⟩) rfl room named free
  have name : (d.insertState ⟨d.tag, next⟩ draft).nameOf ⟨d.tag, next⟩ = draft.name :=
    (rewritten_insertState (h := ⟨d.tag, next⟩) rfl room draft).nameOf_self
  obtain ⟨initial, final⟩ := coherent.roles_insertState room draft
  have finalToo : ((d.insertState ⟨d.tag, next⟩ draft).withRoles ⟨d.tag, next⟩ true false).isFinal
      ⟨d.tag, next⟩ = false := final
  have handed : (d.insertState ⟨d.tag, next⟩ draft).handover draft.name = d.handover draft.name := by
    rw [handover, coherent.initialName?_insertState room named free, handover]
  have checked : (d.checkName draft.name none).result = .ok () :=
    checkName_eq_ok_iff.mpr ⟨named, by simp [free]⟩
  have checkedA : (d.checkTarget draft.onA).result = .ok () := checkTarget_eq_ok_iff.mpr onA
  have checkedB : (d.checkTarget draft.onB).result = .ok () := checkTarget_eq_ok_iff.mpr onB
  have issued : (d.issue next).result = .ok ⟨d.tag, next⟩ := issue_eq_ok_iff.mpr ⟨supplied, rfl⟩
  rw [add, Report.events_bind_of_ok checked, Report.events_bind_of_ok checkedA,
    Report.events_bind_of_ok checkedB, Report.events_bind_of_ok issued]
  cases asked : draft.isInitial <;> cases askedToo : draft.isFinal <;>
    simp [Report.log, news, asked, askedToo, inserted.makeInitial_of_unheld initial,
      makeFinal_of_unheld final, makeFinal_of_unheld finalToo, name, handed]

theorem events_setInitial (coherent : d.Coherent) (live : d.contains h = true) (next : Nat) :
    (d.setInitial h).events = d.news next (.setInitial h) := by
  have checked : (d.checkLive h).result = .ok () := checkLive_eq_ok_iff.mpr live
  rw [setInitial, Report.events_bind_of_ok checked, events_checkLive, List.nil_append, news]
  cases holds : d.isInitial h with
  | true => rw [makeInitial_of_held holds]; rfl
  | false => rw [coherent.makeInitial_of_unheld holds]; rfl

end Coherent

theorem events_remove (d : Automaton) (next : Nat) (h : StateId) :
    (d.remove h).events = d.news next (.remove h) := by
  simp only [remove, news]
  cases d.find? h <;> rfl

theorem events_rename (live : d.find? h = some q)
    (checked : (d.checkName name (some h)).result = .ok ()) : (d.rename h name).events = [] := by
  rw [rename, Report.events_bind_of_ok (require_eq_ok_iff.mpr live), events_require,
    Report.events_bind_of_ok checked, events_checkName]
  rfl

theorem events_connect (live : d.find? source = some q)
    (checked : (d.checkLive target).result = .ok ()) (s : Symbol) :
    (d.connect source s target).events = [.connected source s target] := by
  rw [connect, Report.events_bind_of_ok checked, events_checkLive,
    Report.events_bind_of_ok (require_eq_ok_iff.mpr live), events_require]
  rfl

theorem events_disconnect (live : d.find? source = some q) (s : Symbol) :
    (d.disconnect source s).events = [.disconnected source s] := by
  rw [disconnect, Report.events_bind_of_ok (require_eq_ok_iff.mpr live), events_require]
  rfl

theorem events_setFinal (live : d.contains h = true) (next : Nat) :
    (d.setFinal h).events = d.news next (.setFinal h) := by
  have checked : (d.checkLive h).result = .ok () := checkLive_eq_ok_iff.mpr live
  rw [setFinal, Report.events_bind_of_ok checked, events_checkLive, List.nil_append, news]
  cases holds : d.isFinal h with
  | true => rw [makeFinal_of_held holds]; rfl
  | false => rw [makeFinal_of_unheld holds]; rfl

/-- An edit that succeeds logs what is new, and nothing else. -/
theorem Edited.events_eq (edited : d.Edited next e d' reply) (coherent : d.Coherent)
    (room : d.arena.size ≤ next) : (d.edit next e).events = d.news next e := by
  cases edited with
  | add named free onA onB supplied =>
    have added := add_eq_ok_iff.mpr ⟨⟨named, free⟩, onA, onB, supplied, rfl, rfl⟩
    exact (Report.events_map _ _).trans (coherent.events_add room added)
  | remove | removeUnknown => exact (Report.events_map _ _).trans (d.events_remove next _)
  | rename live named free =>
    refine (Report.events_map _ _).trans (events_rename live ?_)
    exact checkName_eq_ok_iff.mpr ⟨named, fun holder held => congrArg some (free holder held).symm⟩
  | connect live ends =>
    exact (Report.events_map _ _).trans (events_connect live (checkLive_eq_ok_iff.mpr ends) _)
  | disconnect live => exact (Report.events_map _ _).trans (events_disconnect live _)
  | setInitial live => exact (Report.events_map _ _).trans (coherent.events_setInitial live next)
  | setFinal live => exact (Report.events_map _ _).trans (events_setFinal live next)

/-- An edit that finds nothing to do logs one warning, in the words of its notice. -/
theorem Idle.news_eq (idle : d.Idle e notice) (next : Nat) :
    ∃ fields, (d.news next e).map Event.printed = [⟨.warn, notice.message, fields⟩] := by
  cases idle with
  | @remove h dead =>
    have dead : d.find? h = none := by simpa [contains] using dead
    have logged : d.news next (.remove h) = [.unknownState h] := by simp [news, dead]
    exact ⟨_, by rw [logged]; rfl⟩
  | @setInitial h _ holds =>
    have logged : d.news next (.setInitial h) = [.alreadyInitial (d.nameOf h)] := by simp [news, holds]
    exact ⟨_, by rw [logged]; rfl⟩
  | @setFinal h _ holds =>
    have logged : d.news next (.setFinal h) = [.alreadyFinal (d.nameOf h)] := by simp [news, holds]
    exact ⟨_, by rw [logged]; rfl⟩

/-- What lines say of handles. -/
theorem Edited.printed_by_handle (edited : d.Edited next e d' reply) (coherent : d.Coherent)
    (room : d.arena.size ≤ next) :
    (∀ source s target, e = .connect source s target → (d.edit next e).printed = [⟨.trace,
      "set transition",
      [("from", .text source.text), ("to", .text target.text), ("symbol", .text s.name)]⟩]) ∧
    (∀ source s, e = .disconnect source s → (d.edit next e).printed = [⟨.trace, "removed transition",
      [("state", .text source.text), ("symbol", .text s.name)]⟩]) ∧
    (∀ h q, e = .remove h → d.find? h = some q → (d.edit next e).printed =
      [⟨.debug, "removed state", [("state", .text q.name), ("id", .text h.text)]⟩]) ∧
    ∀ h, e = .remove h → d.find? h = none → (d.edit next e).printed =
      [⟨.warn, Notice.stateNotFound.message, [("id", .text h.text)]⟩] := by
  rw [Report.printed, edited.events_eq coherent room]
  refine ⟨?_, ?_, ?_, ?_⟩
  · rintro source s target rfl
    rfl
  · rintro source s rfl
    rfl
  · rintro h q rfl live
    rw [news, live]
    rfl
  · rintro h rfl dead
    rw [news, dead]
    rfl

theorem mem_handover : event ∈ d.handover name ↔
    (∃ holder, d.initialName? = some holder ∧ event = .clearedInitial holder) ∨
      event = .becameInitial name := by
  simp [handover, eq_comm (a := event)]

/-- Where an edit may log that the initial role is taken from a state, that state has it. -/
theorem initialName?_of_cleared (cleared : .clearedInitial name ∈ d.news next e) :
    d.initialName? = some name := by
  have handed : ∀ other, .clearedInitial name ∈ d.handover other → d.initialName? = some name := by
    intro other member
    obtain ⟨_, held, ⟨⟩⟩ | same := mem_handover.mp member
    · exact held
    · contradiction
  cases e with
  | add draft =>
    simp only [news, List.mem_cons, reduceCtorEq, false_or, List.mem_append,
      List.mem_ite_nil_right, List.not_mem_nil, or_false, and_false] at cleared
    exact handed _ cleared.2
  | setInitial h =>
    simp only [news] at cleared
    split at cleared
    · simp at cleared
    · exact handed _ cleared
  | remove h | setFinal h =>
    simp only [news] at cleared
    split at cleared <;> simp at cleared
  | rename | connect | disconnect => simp [news] at cleared

theorem level_of_mem_news_add (logged : event ∈ d.news next (.add draft)) : event.level = .debug := by
  simp only [news, List.mem_cons, List.mem_append, List.mem_ite_nil_right, List.not_mem_nil,
    or_false, mem_handover] at logged
  obtain rfl | ⟨_, ⟨_, _, rfl⟩ | rfl⟩ | ⟨_, rfl⟩ := logged <;> rfl

theorem Coherent.exists_initial (coherent : d.Coherent) (held : d.initialName? = some name) :
    ∃ h, d.contains h = true ∧ d.nameOf h = name := by
  rw [coherent.initialName?_eq, Option.map_eq_some_iff] at held
  obtain ⟨h, initial, named⟩ := held
  exact ⟨h, coherent.initial_live initial, named⟩

theorem Coherent.handover_live (coherent : d.Coherent) (live : d.contains h = true)
    (logged : event ∈ d.handover (d.nameOf h)) (role : event.role? = some name) :
    ∃ g, d.contains g = true ∧ d.nameOf g = name := by
  obtain ⟨holder, held, rfl⟩ | rfl := mem_handover.mp logged
  · cases role
    exact coherent.exists_initial held
  · cases role
    exact ⟨h, live, rfl⟩

/-- An event about a role names a state that is live, by the name that it has. -/
theorem Edited.role_live (edited : d.Edited next e d' reply) (coherent : d.Coherent)
    (room : d.arena.size ≤ next) (logged : event ∈ d.news next e) (role : event.role? = some name) :
    ∃ h, d'.contains h = true ∧ d'.nameOf h = name := by
  cases edited with
  | @add draft =>
    have rewritten := rewritten_insertState (h := ⟨d.tag, next⟩) rfl room draft
    have issued : (d.insertState ⟨d.tag, next⟩ draft).contains ⟨d.tag, next⟩ = true :=
      (rewritten.contains_of_some _).mpr (.inl rfl)
    simp only [news, List.mem_cons, List.mem_append, List.mem_ite_nil_right, List.not_mem_nil,
      or_false, mem_handover] at logged
    obtain rfl | ⟨_, ⟨holder, held, rfl⟩ | rfl⟩ | ⟨_, rfl⟩ := logged
    · contradiction
    · cases role
      obtain ⟨h, live, named⟩ := coherent.exists_initial held
      exact ⟨h, (rewritten.contains_of_some h).mpr (.inr live),
        (rewritten.nameOf_of_ne (ne_next_of_live room live)).trans named⟩
    all_goals
      cases role
      exact ⟨_, issued, rewritten.nameOf_self⟩
  | remove live =>
    simp only [news, live, List.mem_singleton] at logged
    subst logged
    contradiction
  | removeUnknown dead =>
    simp only [news, dead, List.mem_singleton] at logged
    subst logged
    contradiction
  | rename => simp [news] at logged
  | connect | disconnect =>
    cases List.mem_singleton.mp logged
    contradiction
  | @setInitial h live =>
    simp only [news] at logged
    split at logged
    · cases List.mem_singleton.mp logged
      cases role
      exact ⟨h, live, rfl⟩
    · exact coherent.handover_live live logged role
  | @setFinal h live =>
    cases List.mem_singleton.mp logged
    split at role <;> cases role <;> exact ⟨h, live, rfl⟩

end Automaton
end BinaryAutomata
