import Bundleless.Text.Basic
import Bundleless.Text.Hidden
import Bundleless.Json.Printer

/-! # Quoted text in descriptions

    Texts as they stand in descriptions for diagnosis: between quotes, with
    quotes, backslashes and whatever cannot be shown by itself escaped. Such
    a character without an escape of its own is written by its code point in
    braces.
-/

namespace Bundleless.Text

/-- The hexadecimal digits of a number, without zeros at the start. -/
def hexDigits (n : Nat) : List Char :=
  if n < 16 then [Json.hexDigit n] else hexDigits (n / 16) ++ [Json.hexDigit (n % 16)]
termination_by n

/-- The escape of a code point. -/
def codePoint (c : Char) : List Char :=
  ['\\', 'u', '\x7b'] ++ hexDigits c.toNat ++ ['\x7d']

/-- A character inside quotes. -/
def quotedChar (c : Char) : List Char :=
  if c = '"' then ['\\', '"']
  else if c = '\\' then ['\\', '\\']
  else if c = '\n' then ['\\', 'n']
  else if c = '\r' then ['\\', 'r']
  else if c = '\t' then ['\\', 't']
  else if c = '\x00' then ['\\', '0']
  else if isHidden c || isJoining c then codePoint c
  else [c]

/-- A text between quotes. -/
def quoted (s : String) : String :=
  String.ofList ('"' :: s.toList.flatMap quotedChar ++ ['"'])

/-- Texts between quotes, as a list. -/
def quotedList (xs : List String) : String := "[" ++ join ", " (xs.map quoted) ++ "]"

end Bundleless.Text
