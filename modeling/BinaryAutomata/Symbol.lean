/-! The two abstract input symbols. `a` comes before `b` in every listing. -/
namespace BinaryAutomata

inductive Symbol where
  | a
  | b
  deriving DecidableEq

namespace Symbol

def all : List Symbol := [.a, .b]

theorem mem_all (s : Symbol) : s ∈ all := by cases s <;> decide

/-- Rank of a symbol in a state's pair of edges. -/
def slot : Symbol → Nat
  | .a => 0
  | .b => 1

instance : LT Symbol := ⟨fun s t => s.slot < t.slot⟩

instance (s t : Symbol) : Decidable (s < t) := inferInstanceAs (Decidable (s.slot < t.slot))

def name : Symbol → String
  | .a => "A"
  | .b => "B"

end Symbol
end BinaryAutomata
