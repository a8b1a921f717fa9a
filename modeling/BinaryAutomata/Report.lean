import BinaryAutomata.Error.Basic
import BinaryAutomata.Event

/-! An operation answers with a value or an error, and with what it logged on the way.
What was logged before an error stays in the report. -/
namespace BinaryAutomata

structure Report (α : Type) where
  events : List Event
  result : Except Error α

namespace Report

def printed (report : Report α) : List Event.Printed := report.events.map Event.printed

instance : Monad Report where
  pure a := ⟨[], .ok a⟩
  bind report next := match report.result with
    | .ok a => ⟨report.events ++ (next a).events, (next a).result⟩
    | .error e => ⟨report.events, .error e⟩

def log (events : List Event) : Report Unit := ⟨events, .ok ()⟩

def fail (error : Error) : Report α := ⟨[], .error error⟩

def ofExcept (result : Except Error α) : Report α := ⟨[], result⟩

@[simp] theorem pure_eq (a : α) : (pure a : Report α) = ⟨[], .ok a⟩ := rfl

@[simp] theorem bind_ok (events : List Event) (a : α) (next : α → Report β) :
    (⟨events, .ok a⟩ : Report α) >>= next = ⟨events ++ (next a).events, (next a).result⟩ := rfl

@[simp] theorem bind_error (events : List Event) (e : Error) (next : α → Report β) :
    (⟨events, .error e⟩ : Report α) >>= next = ⟨events, .error e⟩ := rfl

@[simp] theorem map_ok (events : List Event) (a : α) (f : α → β) :
    f <$> (⟨events, .ok a⟩ : Report α) = ⟨events, .ok (f a)⟩ := by simp [Functor.map]

@[simp] theorem map_error (events : List Event) (e : Error) (f : α → β) :
    f <$> (⟨events, .error e⟩ : Report α) = ⟨events, .error e⟩ := rfl

theorem events_bind_of_ok {report : Report α} (done : report.result = .ok a) (next : α → Report β) :
    (report >>= next).events = report.events ++ (next a).events := by
  obtain ⟨events, e | a⟩ := report <;> cases done
  rfl

@[simp] theorem events_map (report : Report α) (f : α → β) : (f <$> report).events = report.events := by
  obtain ⟨events, e | a⟩ := report <;> simp

@[simp] theorem printed_map (report : Report α) (f : α → β) :
    (f <$> report).printed = report.printed := by rw [printed, events_map, printed]

theorem bind_eq_ok_iff {report : Report α} {next : α → Report β} :
    (report >>= next).result = .ok b ↔ ∃ a, report.result = .ok a ∧ (next a).result = .ok b := by
  obtain ⟨events, e | a⟩ := report <;> simp

theorem bind_eq_error_iff {report : Report α} {next : α → Report β} :
    (report >>= next).result = .error e ↔ report.result = .error e ∨
      ∃ a, report.result = .ok a ∧ (next a).result = .error e := by
  obtain ⟨events, e | a⟩ := report <;> simp

theorem map_eq_ok_iff {report : Report α} {f : α → β} :
    (f <$> report).result = .ok b ↔ ∃ a, report.result = .ok a ∧ f a = b := by
  obtain ⟨events, e | a⟩ := report <;> simp

private theorem bind_bind (report : Report α) (f : α → Report β) (g : β → Report γ) :
    report >>= f >>= g = report >>= fun a => f a >>= g := by
  obtain ⟨events, e | a⟩ := report
  · rfl
  · simp only [bind_ok]
    cases h : f a with
    | mk more result => cases result <;> simp

instance : LawfulMonad Report :=
  LawfulMonad.mk' Report (by rintro _ ⟨_, _ | _⟩ <;> simp [Functor.map]) (by intros; simp)
    (fun report f g => bind_bind report f g)

end Report
end BinaryAutomata
