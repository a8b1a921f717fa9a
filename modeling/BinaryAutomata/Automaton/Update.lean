import BinaryAutomata.Automaton.Change
import BinaryAutomata.Report

/-! Checked changes of an automaton. Each checks all that it needs before it logs or changes
anything, so one that fails leaves nothing behind. Indices come from the family's supply,
which every clone draws from. -/
namespace BinaryAutomata.Automaton
open Report

def require (d : Automaton) (h : StateId) : Report State :=
  match d.find? h with
  | some q => pure q
  | none => fail (.stateNotFound h)

def checkLive (d : Automaton) (h : StateId) : Report Unit :=
  if d.contains h then pure () else fail (.stateNotFound h)

def checkTarget (d : Automaton) : Option StateId → Report Unit
  | some h => d.checkLive h
  | none => pure ()

/-- A name is free if no live state but the exempt one has it. -/
def checkName (d : Automaton) (name : String) (exempt : Option StateId) : Report Unit :=
  if name = "" then fail .emptyStateName
  else match d.names.find? name with
    | some holder => if exempt = some holder then pure () else fail (.duplicateStateName name)
    | none => pure ()

/-- Indices a family can issue: all 32-bit words but the last. -/
def supplyLimit : Nat := 4294967295

def issue (d : Automaton) (next : Nat) : Report StateId :=
  if next < supplyLimit then pure ⟨d.tag, next⟩ else fail .tooManyStates

def nameOf (d : Automaton) (h : StateId) : String := ((d.find? h).map (·.name)).getD ""

/-- Takes the role from the state that has it. -/
def makeInitial (d : Automaton) (h : StateId) : Report (Automaton × Outcome) :=
  if d.initial = some h then do
    log [.alreadyInitial (d.nameOf h)]
    return (d, .unchanged .alreadyInitial)
  else do
    log (d.initial.toList.map fun holder => .clearedInitial (d.nameOf holder))
    log [.becameInitial (d.nameOf h)]
    return ({ d with initial := some h }, .applied)

def makeFinal (d : Automaton) (h : StateId) : Report (Automaton × Outcome) :=
  if d.isFinal h then do
    log [.alreadyFinal (d.nameOf h)]
    return (d, .unchanged .alreadyFinal)
  else do
    log [.becameFinal (d.nameOf h)]
    return ({ d with finals := d.finals ++ [h] }, .applied)

/-- Adds a state under index `next` and gives it the roles its draft asks for. -/
def add (d : Automaton) (next : Nat) (draft : Draft) : Report (Automaton × StateId) := do
  d.checkName draft.name none
  d.checkTarget draft.onA
  d.checkTarget draft.onB
  let h ← d.issue next
  log [.addedState draft.name h]
  let d := d.insertState h draft
  let d ← if draft.isInitial then (·.1) <$> d.makeInitial h else pure d
  let d ← if draft.isFinal then (·.1) <$> d.makeFinal h else pure d
  return (d, h)

def remove (d : Automaton) (h : StateId) : Report (Automaton × Outcome) :=
  match d.find? h with
  | none => do
    log [.unknownState h]
    return (d, .unchanged .stateNotFound)
  | some q => do
    log [.removedState q.name h]
    return (d.eraseState h q, .applied)

def rename (d : Automaton) (h : StateId) (name : String) : Report Automaton := do
  let q ← d.require h
  d.checkName name (some h)
  return d.renameState h q name

/-- Points the edge of `source` on `s` at `target`, which is checked first. -/
def connect (d : Automaton) (source : StateId) (s : Symbol) (target : StateId) : Report Automaton := do
  d.checkLive target
  let q ← d.require source
  log [.connected source s target]
  return d.redirectState source q s (some target)

def disconnect (d : Automaton) (source : StateId) (s : Symbol) : Report Automaton := do
  let q ← d.require source
  log [.disconnected source s]
  return d.redirectState source q s none

def setInitial (d : Automaton) (h : StateId) : Report (Automaton × Outcome) := do
  d.checkLive h
  d.makeInitial h

def setFinal (d : Automaton) (h : StateId) : Report (Automaton × Outcome) := do
  d.checkLive h
  d.makeFinal h

end BinaryAutomata.Automaton
