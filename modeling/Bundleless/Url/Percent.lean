import Bundleless.Json.Printer

/-! # Percent encoding

    The characters of a URL that stand for bytes, and the bytes that stand
    for characters. Every part of a URL has a set of characters that are
    encoded in it; a character outside ASCII is encoded in every part, byte
    by byte.
-/

namespace Bundleless.Url

/-! ## Encoding -/

/-- The character as a text of hexadecimal pairs. -/
def percentOf (c : Char) : List Char :=
  (String.utf8EncodeChar c).flatMap fun b =>
    ['%', (Json.hexDigit (b.toNat / 16)).toUpper, (Json.hexDigit (b.toNat % 16)).toUpper]

/-- Encode the characters in the set, and all outside ASCII. -/
def percentEncode (inSet : Char → Bool) (cs : List Char) : List Char :=
  cs.flatMap fun c => if inSet c || 0x7F ≤ c.toNat then percentOf c else [c]

/-- The controls, which are encoded everywhere. -/
def controlSet (c : Char) : Bool := c.toNat < 0x20

/-- Encoded in a fragment. -/
def fragmentSet (c : Char) : Bool := controlSet c || [' ', '"', '<', '>', '\x60'].contains c

/-- Encoded in a path. -/
def pathSet (c : Char) : Bool := fragmentSet c || ['#', '?', '\x7b', '\x7d'].contains c

/-- Encoded before the at sign. -/
def userinfoSet (c : Char) : Bool :=
  pathSet c || ['/', ':', ';', '=', '@', '[', '\\', ']', '^', '|'].contains c

/-- Encoded in a query; where the scheme is special, the single quote is too. -/
def querySet (special : Bool) (c : Char) : Bool :=
  controlSet c || [' ', '"', '#', '<', '>'].contains c || (special && c == '\'')

/-! ## Decoding -/

/-- The value of a hexadecimal digit. -/
def hexValue? (c : Char) : Option Nat :=
  if '0' ≤ c ∧ c ≤ '9' then some (c.toNat - 48)
  else if 'a' ≤ c ∧ c ≤ 'f' then some (c.toNat - 87)
  else if 'A' ≤ c ∧ c ≤ 'F' then some (c.toNat - 55)
  else none

/-- The byte that stands before the text as a hexadecimal pair after a percent sign. -/
def pair? : List Char → Option Nat
  | '%' :: h :: l :: _ => do return 16 * (← hexValue? h) + (← hexValue? l)
  | _ => none

/-- The bytes of a text after the first `skip` characters. -/
def percentDecodeFrom : (skip : Nat) → List Char → List Nat
  | _, [] => []
  | skip + 1, _ :: cs => percentDecodeFrom skip cs
  | 0, c :: cs =>
    match pair? (c :: cs) with
    | some b => b :: percentDecodeFrom 2 cs
    | none => (String.utf8EncodeChar c).map UInt8.toNat ++ percentDecodeFrom 0 cs

/-- The bytes of a text, its hexadecimal pairs read. A percent sign before anything else stands
    for itself. -/
def percentDecode (cs : List Char) : List Nat := percentDecodeFrom 0 cs

/-- A sequence of bytes that is under way to a character. -/
structure Partial where
  /-- The bits so far. -/
  bits : Nat
  /-- How many bytes are missing. -/
  missing : Nat
  /-- The least and the greatest next byte. -/
  low : Nat
  high : Nat

/-- What a byte at the start of a sequence means: a character, the start of a longer sequence, or
    nothing. -/
def startByte (b : Nat) : Option Char ⊕ Partial :=
  if b < 0x80 then .inl (some (Char.ofNat b))
  else if 0xC2 ≤ b ∧ b ≤ 0xDF then .inr ⟨b - 0xC0, 1, 0x80, 0xBF⟩
  else if b = 0xE0 then .inr ⟨0, 2, 0xA0, 0xBF⟩
  else if b = 0xED then .inr ⟨0xD, 2, 0x80, 0x9F⟩
  else if 0xE1 ≤ b ∧ b ≤ 0xEF then .inr ⟨b - 0xE0, 2, 0x80, 0xBF⟩
  else if b = 0xF0 then .inr ⟨0, 3, 0x90, 0xBF⟩
  else if 0xF1 ≤ b ∧ b ≤ 0xF3 then .inr ⟨b - 0xF0, 3, 0x80, 0xBF⟩
  else if b = 0xF4 then .inr ⟨4, 3, 0x80, 0x8F⟩
  else .inl none

/-- The characters that the bytes stand for, and nothing for each broken sequence. -/
def decodeUtf8 : Option Partial → List Nat → List (Option Char)
  | none, [] => []
  | some _, [] => [none]
  | pending, b :: bs =>
    let broken :=
      match pending with
      | none => []
      | some _ => [none]
    let afresh :=
      match startByte b with
      | .inl c => broken ++ c :: decodeUtf8 none bs
      | .inr p => broken ++ decodeUtf8 (some p) bs
    match pending with
    | none => afresh
    | some p =>
      if p.low ≤ b ∧ b ≤ p.high then
        let bits := 64 * p.bits + (b - 0x80)
        if p.missing = 1 then some (Char.ofNat bits) :: decodeUtf8 none bs
        else decodeUtf8 (some ⟨bits, p.missing - 1, 0x80, 0xBF⟩) bs
      else afresh

/-- The text that the bytes stand for, a replacement character for each broken sequence. -/
def textOfBytes (bs : List Nat) : List Char :=
  (decodeUtf8 none bs).map fun c => c.getD '\uFFFD'

/-- The text that the bytes stand for, if no sequence is broken. -/
def textOfBytes? (bs : List Nat) : Option (List Char) := (decodeUtf8 none bs).mapM id

end Bundleless.Url
