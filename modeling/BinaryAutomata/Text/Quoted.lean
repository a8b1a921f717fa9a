import BinaryAutomata.Text.GraphemeExtend
import BinaryAutomata.Text.NonPrinting

/-! Characters in single quotes. What would not show, or would attach to the opening quote,
is written as its code point in hexadecimal; a double quote stands for itself. -/
namespace BinaryAutomata.Text

/-- Letters that take the place of a missing jamo and leave it blank. -/
def fillers : List Char := ['\u115F', '\u1160', '\u3164', '\uFFA0']

/-- Marks that extend a grapheme but stand in a cell of their own. -/
def halfwidthSoundMarks : List Char := ['\uFF9E', '\uFF9F']

def isBlank (c : Char) : Bool := isNonPrinting c || fillers.contains c

def attaches (c : Char) : Bool := isGraphemeExtend c && !halfwidthSoundMarks.contains c

/-- The code point in lower-case hexadecimal without leading zeros, in braces. -/
def codeEscape (c : Char) : List Char :=
  ['\\', 'u', '\x7b'] ++ Nat.toDigits 16 c.toNat ++ ['\x7d']

def escape (c : Char) : List Char :=
  if c = '\x00' then ['\\', '0']
  else if c = '\t' then ['\\', 't']
  else if c = '\r' then ['\\', 'r']
  else if c = '\n' then ['\\', 'n']
  else if c = '\'' then ['\\', '\'']
  else if c = '\\' then ['\\', '\\']
  else if attaches c || isBlank c then codeEscape c
  else [c]

def quoted (c : Char) : String := String.ofList (['\''] ++ escape c ++ ['\''])

end BinaryAutomata.Text
