import Bundleless.Text.Basic
import Bundleless.Text.Capital
import Bundleless.Text.Hidden
import Bundleless.Url.Percent
import Bundleless.Url.Punycode

/-! # Domain names

    A domain name as it is used on the wire: in small letters, labels with
    characters outside ASCII in their written form in ASCII. A name with a
    character that cannot stand in a domain has none.
-/

namespace Bundleless.Url.Domain

/-! ## Characters -/

/-- A character of ASCII that cannot stand in a domain. -/
def isForbidden (c : Char) : Bool :=
  c.toNat ≤ 0x20 || c.toNat == 0x7F
    || ['%', '#', '/', ':', '<', '>', '?', '@', '[', '\\', ']', '^', '|'].contains c

/-- A character that is left out of a name. -/
def isIgnored (c : Char) : Bool :=
  let n := c.toNat
  n == 0xAD || n == 0x200B || n == 0x2060 || n == 0xFEFF || (0xFE00 ≤ n && n ≤ 0xFE0F)

/-- A character of a name in its basic form: small, not of full width, and a plain dot for every
    full stop. -/
def basic (c : Char) : Char :=
  let n := c.toNat
  if n < 0x80 then c.toLower
  else if n = 0x3002 ∨ n = 0xFF0E ∨ n = 0xFF61 then '.'
  else if 0xFF01 ≤ n ∧ n ≤ 0xFF5E then (Char.ofNat (n - 0xFEE0)).toLower
  else Char.ofNat (smallLetter n)

/-! ## Labels -/

/-- What a label in ASCII begins with when it stands for another one. -/
def mark : List Char := ['x', 'n', '-', '-']

/-- The characters of a label: shown, in their basic form, and the first not joining one before
    it. -/
def isProper (label : List Char) : Bool :=
  !label.head?.any Text.isJoining
    && label.all fun c => !isForbidden c && !Text.isHidden c && !isIgnored c && basic c == c

/-- The label in ASCII. A marked label has to stand for one that needs the mark. -/
def labelToAscii? (label : List Char) : Option (List Char) :=
  if !isProper label then none
  else if label.all (·.toNat < 0x80) then
    match Chars.stripPrefix? mark label with
    | none => some label
    | some code =>
      match Punycode.decode? code with
      | none => none
      | some name =>
        if !isProper name ∨ name.all (·.toNat < 0x80) ∨ Punycode.encode name ≠ code then none
        else some label
  else some (mark ++ Punycode.encode label)

/-- The name in ASCII. -/
def toAscii? (cs : List Char) : Option (List Char) := do
  let name := (cs.filter (!isIgnored ·)).map basic
  let labels ← (Chars.splitAt (· == '.') name).mapM labelToAscii?
  return List.intercalate ['.'] labels

end Bundleless.Url.Domain
