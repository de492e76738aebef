import QueryBoard.Text.CharRanges

/-!
# Blank characters

The characters with the Unicode property White_Space, and the words of a text: its maximal runs
of other characters.
-/

set_option autoImplicit false

namespace QueryBoard.Text

def blankRanges : List (Nat × Nat) := [
  (0x9, 0xd), (0x20, 0x20), (0x85, 0x85), (0xa0, 0xa0), (0x1680, 0x1680), (0x2000, 0x200a),
  (0x2028, 0x2029), (0x202f, 0x202f), (0x205f, 0x205f), (0x3000, 0x3000)]

/-- White_Space: a blank of any script, line breaks included. -/
def isBlank (c : Char) : Bool := inRanges blankRanges c

def words (cs : List Char) : List (List Char) :=
  (cs.splitBy fun a b => isBlank a == isBlank b).filter fun w => !w.any isBlank

/-- The words of a text with one space between two of them and none around. -/
def collapseBlanks (s : String) : String :=
  " ".intercalate ((words s.toList).map String.ofList)

end QueryBoard.Text
