/-! Handles to states. A handle carries the tag of the family that issued it, so one that
another family issued is told apart even when its index is in use here. -/
namespace BinaryAutomata

/-- Identity of a family: an automaton and everything cloned from it. Tags are 32-bit words. -/
abbrev FamilyTag := UInt32

@[ext] structure StateId where
  owner : FamilyTag
  index : Nat
  deriving DecidableEq

def StateId.text (h : StateId) : String := "#" ++ toString h.index

end BinaryAutomata
