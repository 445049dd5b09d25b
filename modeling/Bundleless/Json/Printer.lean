import Bundleless.Json.Basic
import Bundleless.Number.Decimal

/-! # Writing JSON

    Two written forms of a value: the compact one on one line, and the
    indented one with two blanks a level. Both are defined on lists of
    characters.
-/

namespace Bundleless.Json

/-! ## Leaves -/

/-- A hexadecimal digit, in small letters. -/
def hexDigit (n : Nat) : Char :=
  if n < 10 then Char.ofNat (48 + n) else Char.ofNat (87 + n)

/-- A character inside quotes. Quotes, backslashes and control characters are escaped, and
    nothing else is. -/
def escapeChar (c : Char) : List Char :=
  if c = '"' then ['\\', '"']
  else if c = '\\' then ['\\', '\\']
  else if c = '\n' then ['\\', 'n']
  else if c = '\r' then ['\\', 'r']
  else if c = '\t' then ['\\', 't']
  else if c = '\x08' then ['\\', 'b']
  else if c = '\x0c' then ['\\', 'f']
  else if c.toNat < 0x20 then
    ['\\', 'u', '0', '0', hexDigit (c.toNat / 16), hexDigit (c.toNat % 16)]
  else [c]

/-- A quoted text. -/
def quote (cs : List Char) : List Char :=
  '"' :: cs.flatMap escapeChar ++ ['"']

/-- An integer in decimal digits. -/
def intChars : Int → List Char
  | .ofNat n => Decimal.digitsOf n
  | .negSucc n => '-' :: Decimal.digitsOf (n + 1)

/-- A number. A float always has a point or an exponent. -/
def numberChars : JsonNumber → List Char
  | .int i => intChars i
  | .float negative units exponent =>
    let magnitude :=
      if units = 0 then ['0', '.', '0'] else (Decimal.shortest units exponent).toChars
    if negative then '-' :: magnitude else magnitude

/-! ## Compact form -/

mutual

/-- The value on one line, without blanks. -/
def compactChars : Json → List Char
  | .null => ['n', 'u', 'l', 'l']
  | .bool true => ['t', 'r', 'u', 'e']
  | .bool false => ['f', 'a', 'l', 's', 'e']
  | .number n => numberChars n
  | .string s => quote s.toList
  | .array items => '[' :: compactItems items
  | .object fields => '\x7b' :: compactFields fields

/-- The items of an array and its closing bracket. -/
def compactItems : List Json → List Char
  | [] => [']']
  | v :: vs =>
    match vs with
    | [] => compactChars v ++ [']']
    | _ :: _ => compactChars v ++ ',' :: compactItems vs

/-- The fields of an object and its closing brace. -/
def compactFields : List (String × Json) → List Char
  | [] => ['\x7d']
  | (k, v) :: fs =>
    match fs with
    | [] => quote k.toList ++ ':' :: compactChars v ++ ['\x7d']
    | _ :: _ => quote k.toList ++ ':' :: compactChars v ++ ',' :: compactFields fs

end

/-- The value on one line, without blanks. -/
def compact (v : Json) : String := String.ofList (compactChars v)

/-! ## Indented form -/

/-- A new line, indented by `depth` levels. -/
def newLine (depth : Nat) : List Char := '\n' :: List.replicate (2 * depth) ' '

mutual

/-- The value over several lines, standing at `depth`. An empty array or object stays on its
    line. -/
def prettyChars (depth : Nat) : Json → List Char
  | .array [] => ['[', ']']
  | .array (v :: vs) => '[' :: prettyItems depth (v :: vs)
  | .object [] => ['\x7b', '\x7d']
  | .object (f :: fs) => '\x7b' :: prettyFields depth (f :: fs)
  | .null => ['n', 'u', 'l', 'l']
  | .bool true => ['t', 'r', 'u', 'e']
  | .bool false => ['f', 'a', 'l', 's', 'e']
  | .number n => numberChars n
  | .string s => quote s.toList

/-- The items of an array, each on its line, and the closing bracket. -/
def prettyItems (depth : Nat) : List Json → List Char
  | [] => newLine depth ++ [']']
  | v :: vs =>
    newLine (depth + 1) ++ prettyChars (depth + 1) v ++
      (if vs.isEmpty then [] else [',']) ++ prettyItems depth vs

/-- The fields of an object, each on its line, and the closing brace. -/
def prettyFields (depth : Nat) : List (String × Json) → List Char
  | [] => newLine depth ++ ['\x7d']
  | (k, v) :: fs =>
    newLine (depth + 1) ++ quote k.toList ++ [':', ' '] ++ prettyChars (depth + 1) v ++
      (if fs.isEmpty then [] else [',']) ++ prettyFields depth fs

end

/-- The value over several lines, two blanks a level. -/
def pretty (v : Json) : String := String.ofList (prettyChars 0 v)

end Bundleless.Json
