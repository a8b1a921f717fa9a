import BinaryAutomata.Trace

/-! What running a word yields: the trace and whether it ended in a final state. -/
namespace BinaryAutomata

inductive Verdict where
  | accepted
  | rejected
  deriving DecidableEq

namespace Verdict

def ofBool (final : Bool) : Verdict := if final then .accepted else .rejected

def isAccepted (verdict : Verdict) : Bool := verdict = .accepted

def text : Verdict → String
  | .accepted => "accepted"
  | .rejected => "rejected"

def sentence : Verdict → String
  | .accepted => "Input accepted."
  | .rejected => "Input rejected."

end Verdict

structure Evaluation where
  verdict : Verdict
  trace : Trace
  deriving DecidableEq

namespace Evaluation

def isAccepted (evaluation : Evaluation) : Bool := evaluation.verdict.isAccepted

def after (evaluation : Evaluation) (visit : Visit) : Evaluation :=
  { evaluation with trace := evaluation.trace.after visit }

/-- The trace on its lines, the verdict on the last one. -/
def text (evaluation : Evaluation) : String :=
  evaluation.trace.text ++ "\n" ++ evaluation.verdict.sentence

end Evaluation
end BinaryAutomata
