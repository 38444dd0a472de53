import Mathlib.Init

/-!
# Blank texts

`str.strip` removes the characters Python counts as white space from both ends, so a
text is blank, strips to nothing, exactly when it has no other.
-/

namespace Strings

/-- `c.isspace()`. -/
def isSpace (c : Char) : Bool :=
  let n := c.toNat
  9 ≤ n && n ≤ 13 || 28 ≤ n && n ≤ 32 || n = 0x85 || n = 0xa0 || n = 0x1680 || 0x2000 ≤ n && n ≤ 0x200a ||
    n = 0x2028 || n = 0x2029 || n = 0x202f || n = 0x205f || n = 0x3000

/-- `s.strip() == ""`. -/
def isBlank (s : String) : Bool := s.toList.all isSpace

end Strings
