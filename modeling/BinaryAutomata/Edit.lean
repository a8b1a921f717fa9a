import BinaryAutomata.Automaton.Update

/-! Updates as data, so that histories can be written down and replayed. -/
namespace BinaryAutomata

inductive Edit where
  | add (draft : Draft)
  | remove (h : StateId)
  | rename (h : StateId) (name : String)
  | connect (source : StateId) (s : Symbol) (target : StateId)
  | disconnect (source : StateId) (s : Symbol)
  | setInitial (h : StateId)
  | setFinal (h : StateId)
  deriving DecidableEq

inductive Reply where
  | created (number : Nat)
  | issued (h : StateId)
  | outcome (outcome : Outcome)
  | done
  deriving DecidableEq

/-- Carries out an edit of an automaton whose family would issue index `next`. -/
def Automaton.edit (d : Automaton) (next : Nat) : Edit → Report (Automaton × Reply)
  | .add draft => do let (d, h) ← d.add next draft; return (d, .issued h)
  | .remove h => do let (d, outcome) ← d.remove h; return (d, .outcome outcome)
  | .rename h name => do return (← d.rename h name, .done)
  | .connect source s target => do return (← d.connect source s target, .done)
  | .disconnect source s => do return (← d.disconnect source s, .done)
  | .setInitial h => do let (d, outcome) ← d.setInitial h; return (d, .outcome outcome)
  | .setFinal h => do let (d, outcome) ← d.setFinal h; return (d, .outcome outcome)

end BinaryAutomata
