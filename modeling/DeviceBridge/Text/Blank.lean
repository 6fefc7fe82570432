import DeviceBridge.Text.Ranges

/-!
# DeviceBridge.Text.Blank

White space in the sense of Unicode (property `White_Space`, 25 characters) and trimming by it.
-/

namespace DeviceBridge.Text

/-- The white space of Unicode, as closed ranges of code points. -/
def blankRanges : List (Nat × Nat) := [
    (0x9, 0xd), (0x20, 0x20), (0x85, 0x85), (0xa0, 0xa0), (0x1680, 0x1680), (0x2000, 0x200a),
    (0x2028, 0x2029), (0x202f, 0x202f), (0x205f, 0x205f), (0x3000, 0x3000)]

/-- Whether a character is white space. -/
def isBlank (c : Char) : Bool := inRanges blankRanges c

/-- Drops the white space at both ends. -/
def trim (cs : List Char) : List Char :=
  ((cs.dropWhile isBlank).reverse.dropWhile isBlank).reverse

end DeviceBridge.Text
