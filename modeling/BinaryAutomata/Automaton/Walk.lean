import BinaryAutomata.Alphabet.Parse
import BinaryAutomata.Automaton.Edges
import BinaryAutomata.Report

/-! Running words. A walk follows live edges from the initial state and logs each step; it
fails at the first hole it meets. -/
namespace BinaryAutomata.Automaton
open Report

/-- Walks on from the live state `h`, whose data is `q`, after `read` symbols. -/
def walk (d : Automaton) (read : Nat) (h : StateId) (q : State) : List Symbol → Report Evaluation
  | [] => do
    let verdict := Verdict.ofBool (d.isFinal h)
    log [.evaluated read q.name verdict]
    return ⟨verdict, ⟨[⟨h, q.name⟩]⟩⟩
  | s :: word => match d.follow? q s with
    | none => fail (.missingTransition q.name (d.alphabet.charOf s))
    | some (target, next) => do
      log [.stepped q.name next.name (d.alphabet.charOf s)]
      return (← d.walk (read + 1) target next word).after ⟨h, q.name⟩

def evaluateSymbols (d : Automaton) (word : List Symbol) : Report Evaluation :=
  match d.initial with
  | none => fail .noInitialState
  | some h => match d.find? h with
    | none => fail .noInitialState
    | some q => d.walk 0 h q word

/-- The whole input is read before any state is visited. -/
def evaluate (d : Automaton) (input : String) : Report Evaluation := do
  d.evaluateSymbols (← ofExcept (d.alphabet.parse input))

def accepts (d : Automaton) (input : String) : Report Bool := (·.isAccepted) <$> d.evaluate input

end BinaryAutomata.Automaton
