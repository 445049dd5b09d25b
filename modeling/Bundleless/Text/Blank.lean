/-! # Blank characters

    The white space of this library is the Unicode property `White_Space`:
    the characters stripped from both ends of a configured value, and the
    ones that may separate the words of an import statement.
-/

namespace Bundleless

/-- A character with the property `White_Space`. -/
def isBlank (c : Char) : Bool :=
  let n := c.toNat
  (9 ≤ n && n ≤ 13) || n == 0x20 || n == 0x85 || n == 0xA0 || n == 0x1680
    || (0x2000 ≤ n && n ≤ 0x200A) || n == 0x2028 || n == 0x2029 || n == 0x202F
    || n == 0x205F || n == 0x3000

end Bundleless
