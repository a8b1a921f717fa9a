import BinaryAutomata.Proofs.Refusal
import BinaryAutomata.Proofs.Run

/-! Edits in place. Here an edit works on one automaton part by part and on the supply of its family,
and what it has done by the time it fails stays done. It comes to the same as working on a copy, for
every check is made before the first change. -/
namespace BinaryAutomata

/-- An automaton that is being edited, and the index that its family issues next. -/
structure Bench where
  automaton : Automaton
  supply : Nat

/-- A program that may fail at any point and then leaves the bench as it is at that point. -/
abbrev InPlace := EStateM Error Bench

namespace InPlace
open EStateM

def check (ask : Automaton → Report α) : InPlace α := fun bench =>
  match (ask bench.automaton).result with
  | .ok a => .ok a bench
  | .error cause => .error cause bench

def change (f : Automaton → Automaton) : InPlace Unit := fun bench =>
  .ok () { bench with automaton := f bench.automaton }

def placeState (i : Nat) (q : State) : InPlace Unit :=
  change fun d => { d with arena := d.arena.place i q }

def replaceState (i : Nat) (q : State) : InPlace Unit :=
  change fun d => { d with arena := d.arena.replace i q }

def eraseName (name : String) : InPlace Unit := change fun d => { d with names := d.names.erase name }

def insertName (name : String) (h : StateId) : InPlace Unit :=
  change fun d => { d with names := d.names.insert name h }

/-- Takes an index off the supply. -/
def issue : InPlace StateId := do
  let bench ← get
  let h ← check fun d => d.issue bench.supply
  set { bench with supply := bench.supply + 1 }
  return h

def makeInitial (h : StateId) : InPlace Outcome := do
  if (← get).automaton.initial = some h then return .unchanged .alreadyInitial
  change fun d => { d with initial := some h }
  return .applied

def makeFinal (h : StateId) : InPlace Outcome := do
  if (← get).automaton.isFinal h then return .unchanged .alreadyFinal
  change fun d => { d with finals := d.finals ++ [h] }
  return .applied

def giveRoles (h : StateId) (isInitial isFinal : Bool) : InPlace Unit := do
  if isInitial then discard (makeInitial h)
  if isFinal then discard (makeFinal h)

def add (draft : Draft) : InPlace StateId := do
  check fun d => d.checkName draft.name none
  check fun d => d.checkTarget draft.onA
  check fun d => d.checkTarget draft.onB
  let h ← issue
  insertName draft.name h
  placeState h.index ⟨draft.name, draft.onA, draft.onB⟩
  giveRoles h draft.isInitial draft.isFinal
  return h

def remove (h : StateId) : InPlace Outcome := do
  match (← get).automaton.find? h with
  | none => return .unchanged .stateNotFound
  | some q =>
    change fun d => { d with arena := d.arena.erase h.index }
    change fun d => { d with initial := if d.initial = some h then none else d.initial }
    change fun d => { d with finals := d.finals.erase h }
    eraseName q.name
    return .applied

def rename (h : StateId) (name : String) : InPlace Unit := do
  let q ← check fun d => d.require h
  check fun d => d.checkName name (some h)
  replaceState h.index { q with name }
  eraseName q.name
  insertName name h

def connect (source : StateId) (s : Symbol) (target : StateId) : InPlace Unit := do
  check fun d => d.checkLive target
  let q ← check fun d => d.require source
  replaceState source.index (q.redirect s (some target))

def disconnect (source : StateId) (s : Symbol) : InPlace Unit := do
  let q ← check fun d => d.require source
  replaceState source.index (q.redirect s none)

def setInitial (h : StateId) : InPlace Outcome := do
  check fun d => d.checkLive h
  makeInitial h

def setFinal (h : StateId) : InPlace Outcome := do
  check fun d => d.checkLive h
  makeFinal h

def edit : Edit → InPlace Reply
  | .add draft => return .issued (← add draft)
  | .remove h => return .outcome (← remove h)
  | .rename h name => do rename h name; return .done
  | .connect source s target => do connect source s target; return .done
  | .disconnect source s => do disconnect source s; return .done
  | .setInitial h => return .outcome (← setInitial h)
  | .setFinal h => return .outcome (← setFinal h)

variable {d : Automaton} {next : Nat}

theorem run_check (ask : Automaton → Report α) : (check ask).run ⟨d, next⟩ =
    match (ask d).result with
    | .ok a => .ok a ⟨d, next⟩
    | .error cause => .error cause ⟨d, next⟩ := rfl

theorem run_change (f : Automaton → Automaton) : (change f).run ⟨d, next⟩ = .ok () ⟨f d, next⟩ := rfl

theorem run_discard (program : InPlace α) (bench : Bench) : (discard program).run bench =
    match program.run bench with
    | .ok _ after => .ok () after
    | .error cause after => .error cause after := by
  simp only [discard, Functor.discard, Functor.mapConst, EStateM.run, EStateM.map,
    Function.comp]
  cases program bench <;> rfl

theorem run_issue (supplied : next < Automaton.supplyLimit) :
    issue.run ⟨d, next⟩ = .ok ⟨d.tag, next⟩ ⟨d, next + 1⟩ := by
  have issued : (d.issue next).result = .ok ⟨d.tag, next⟩ :=
    Automaton.issue_eq_ok_iff.mpr ⟨supplied, rfl⟩
  simp only [issue, run_bind, run_get, run_check, issued, run_set, run_pure]

theorem run_makeInitial (h : StateId) : (makeInitial h).run ⟨d, next⟩ =
    .ok (if d.isInitial h then .unchanged .alreadyInitial else .applied)
      ⟨d.withRoles h true false, next⟩ := by
  by_cases held : d.initial = some h
  · have same : d.withRoles h true false = d := by simp [Automaton.withRoles, ← held]
    simp [makeInitial, held, Automaton.isInitial, same]
  · simp only [makeInitial, run_bind, run_get, held, if_false, run_change, run_pure,
      Automaton.isInitial, decide_false, Bool.false_eq_true]
    rfl

theorem run_makeFinal (h : StateId) : (makeFinal h).run ⟨d, next⟩ =
    .ok (if d.isFinal h then .unchanged .alreadyFinal else .applied)
      ⟨d.withRoles h false true, next⟩ := by
  cases held : d.isFinal h with
  | true => simp [makeFinal, held, Automaton.withRoles]
  | false =>
    simp only [makeFinal, run_bind, run_get, held, if_false, run_change, run_pure,
      Bool.false_eq_true, Automaton.withRoles, Bool.not_false, Bool.and_self, if_true]

theorem run_giveRoles (h : StateId) (isInitial isFinal : Bool) :
    (giveRoles h isInitial isFinal).run ⟨d, next⟩ = .ok () ⟨d.withRoles h isInitial isFinal, next⟩ := by
  cases isInitial <;> cases isFinal <;>
    simp only [giveRoles, Bool.false_eq_true, if_true, if_false, run_bind, run_discard,
      run_makeInitial, run_makeFinal, run_pure, Automaton.withRoles_false,
      Automaton.withRoles_initial_final]

end InPlace

namespace Automaton
open EStateM InPlace

variable {d : Automaton}

theorem Edited.run_inPlace (edited : d.Edited next e d' reply) :
    (InPlace.edit e).run ⟨d, next⟩ = .ok reply ⟨d', reply.supplyAfter next⟩ := by
  cases edited with
  | @add draft named free onA onB supplied =>
    have allowed : (d.checkName draft.name none).result = .ok () :=
      checkName_eq_ok_iff.mpr ⟨named, by simp [free]⟩
    have liveA : (d.checkTarget draft.onA).result = .ok () := checkTarget_eq_ok_iff.mpr onA
    have liveB : (d.checkTarget draft.onB).result = .ok () := checkTarget_eq_ok_iff.mpr onB
    simp only [InPlace.edit, InPlace.add, run_bind, run_check, allowed, liveA, liveB,
      run_issue supplied, insertName, placeState, run_change, run_giveRoles,
      run_pure]
    rfl
  | remove live =>
    simp only [InPlace.edit, InPlace.remove, run_bind, run_get, live, eraseName, run_change, run_pure]
    rfl
  | removeUnknown dead =>
    simp only [InPlace.edit, InPlace.remove, run_bind, run_get, dead, run_pure]
    rfl
  | @rename h q name live named free =>
    have found := require_eq_ok_iff.mpr live
    have allowed : (d.checkName name (some h)).result = .ok () :=
      checkName_eq_ok_iff.mpr ⟨named, fun holder held => congrArg some (free holder held).symm⟩
    simp only [InPlace.edit, InPlace.rename, run_bind, run_check, found, allowed,
      replaceState, eraseName, insertName, run_change, run_pure]
    rfl
  | @connect source q target s live ends =>
    have found := require_eq_ok_iff.mpr live
    have checked : (d.checkLive target).result = .ok () := checkLive_eq_ok_iff.mpr ends
    simp only [InPlace.edit, InPlace.connect, run_bind, run_check, checked,
      found, replaceState, run_change, run_pure]
    rfl
  | disconnect live =>
    have found := require_eq_ok_iff.mpr live
    simp only [InPlace.edit, InPlace.disconnect, run_bind, run_check, found, replaceState,
      run_change, run_pure]
    rfl
  | @setInitial h live =>
    have checked : (d.checkLive h).result = .ok () := checkLive_eq_ok_iff.mpr live
    simp only [InPlace.edit, InPlace.setInitial, run_bind, run_check, checked, run_makeInitial,
      run_pure, Reply.supplyAfter]
  | @setFinal h live =>
    have checked : (d.checkLive h).result = .ok () := checkLive_eq_ok_iff.mpr live
    simp only [InPlace.edit, InPlace.setFinal, run_bind, run_check, checked, run_makeFinal,
      run_pure, Reply.supplyAfter]

/-- By the time an edit is refused it has only been checked, so the bench is as it was before. -/
theorem Refused.run_inPlace (coherent : d.Coherent) (refused : d.Refused next e cause) :
    (InPlace.edit e).run ⟨d, next⟩ = .error cause ⟨d, next⟩ := by
  cases refused with
  | addName refused =>
    have failed := coherent.checkName_eq_error_iff.mpr refused
    simp only [InPlace.edit, InPlace.add, run_bind, run_check, failed]
  | @addOnA h draft free onA dead =>
    have allowed : (d.checkName draft.name none).result = .ok () :=
      coherent.checkName_eq_ok_iff_free.mpr free
    have failed := checkTarget_eq_error_iff.mpr ⟨h, onA, dead, rfl⟩
    simp only [InPlace.edit, InPlace.add, run_bind, run_check, allowed, failed]
  | @addOnB h draft free liveA onB dead =>
    have allowed : (d.checkName draft.name none).result = .ok () :=
      coherent.checkName_eq_ok_iff_free.mpr free
    have liveA : (d.checkTarget draft.onA).result = .ok () := checkTarget_eq_ok_iff.mpr liveA
    have failed := checkTarget_eq_error_iff.mpr ⟨h, onB, dead, rfl⟩
    simp only [InPlace.edit, InPlace.add, run_bind, run_check, allowed, liveA, failed]
  | @addExhausted draft free liveA liveB exhausted =>
    have allowed : (d.checkName draft.name none).result = .ok () :=
      coherent.checkName_eq_ok_iff_free.mpr free
    have liveA : (d.checkTarget draft.onA).result = .ok () := checkTarget_eq_ok_iff.mpr liveA
    have liveB : (d.checkTarget draft.onB).result = .ok () := checkTarget_eq_ok_iff.mpr liveB
    have failed : (d.issue next).result = .error .tooManyStates :=
      issue_eq_error_iff.mpr ⟨exhausted, rfl⟩
    simp only [InPlace.edit, InPlace.add, run_bind, run_check, allowed, liveA, liveB, InPlace.issue,
      run_get, failed]
  | renameDead dead =>
    have failed := require_eq_error_iff.mpr ⟨dead, rfl⟩
    simp only [InPlace.edit, InPlace.rename, run_bind, run_check, failed]
  | renameName live refused =>
    obtain ⟨q, live⟩ := contains_iff.mp live
    have found := require_eq_ok_iff.mpr live
    have failed := coherent.checkName_eq_error_iff.mpr refused
    simp only [InPlace.edit, InPlace.rename, run_bind, run_check, found, failed]
  | connectTarget dead =>
    have failed := checkLive_eq_error_iff.mpr ⟨dead, rfl⟩
    simp only [InPlace.edit, InPlace.connect, run_bind, run_check, failed]
  | @connectSource target source s live dead =>
    have checked : (d.checkLive target).result = .ok () := checkLive_eq_ok_iff.mpr live
    have failed := require_eq_error_iff.mpr ⟨dead, rfl⟩
    simp only [InPlace.edit, InPlace.connect, run_bind, run_check, checked, failed]
  | disconnect dead =>
    have failed := require_eq_error_iff.mpr ⟨dead, rfl⟩
    simp only [InPlace.edit, InPlace.disconnect, run_bind, run_check, failed]
  | setInitial dead =>
    have failed := checkLive_eq_error_iff.mpr ⟨dead, rfl⟩
    simp only [InPlace.edit, InPlace.setInitial, run_bind, run_check, failed]
  | setFinal dead =>
    have failed := checkLive_eq_error_iff.mpr ⟨dead, rfl⟩
    simp only [InPlace.edit, InPlace.setFinal, run_bind, run_check, failed]

end Automaton
end BinaryAutomata
