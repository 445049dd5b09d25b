import Bundleless.Text.Blank

/-! # Text operations

    The operations on text that the loader is built from: trimming, cutting
    at a character, taking a leading or trailing word off, and replacing the
    first occurrence of a word. Each is defined on a list of characters, by
    recursion on it, in the namespace `Chars`; the function of the same name
    in the namespace `Text` is the one on strings.
-/

namespace Bundleless

/-! ## On characters -/

namespace Chars

/-- Drop the characters satisfying `p` from the end. -/
def dropEndWhile (p : Char → Bool) (cs : List Char) : List Char :=
  (cs.reverse.dropWhile p).reverse

/-- Drop the characters satisfying `p` from both ends. -/
def trimWhile (p : Char → Bool) (cs : List Char) : List Char :=
  dropEndWhile p (cs.dropWhile p)

/-- Drop the blanks at both ends. -/
def trim (cs : List Char) : List Char :=
  trimWhile isBlank cs

/-- What follows the word `w` at the start of the text, if `w` stands there. -/
def stripPrefix? : (w cs : List Char) → Option (List Char)
  | [], cs => some cs
  | _ :: _, [] => none
  | x :: w, c :: cs => if x = c then stripPrefix? w cs else none

/-- What precedes the word `w` at the end of the text, if `w` stands there. -/
def stripSuffix? (w cs : List Char) : Option (List Char) :=
  (stripPrefix? w.reverse cs.reverse).map List.reverse

/-- The text begins with `w`. -/
def startsWith (w cs : List Char) : Bool :=
  (stripPrefix? w cs).isSome

/-- The text ends with `w`. -/
def endsWith (w cs : List Char) : Bool :=
  (stripSuffix? w cs).isSome

/-- The word `w` occurs in the text. -/
def contains (w : List Char) : List Char → Bool
  | [] => startsWith w []
  | c :: cs => startsWith w (c :: cs) || contains w cs

/-- Replace the first occurrence of the word `w` by `r`. -/
def replaceFirst (w r : List Char) : List Char → List Char
  | [] => if w.isEmpty then r else []
  | c :: cs =>
    match stripPrefix? w (c :: cs) with
    | some rest => r ++ rest
    | none => c :: replaceFirst w r cs

/-- The pieces of the text between the characters satisfying `p`. There is
    always at least one. -/
def splitAt (p : Char → Bool) : List Char → List (List Char)
  | [] => [[]]
  | c :: cs =>
    match splitAt p cs with
    | [] => [[c]]
    | piece :: pieces => if p c then [] :: piece :: pieces else (c :: piece) :: pieces

/-- The text before and after the first character satisfying `p`. -/
def cutFirst? (p : Char → Bool) : List Char → Option (List Char × List Char)
  | [] => none
  | c :: cs => if p c then some ([], cs) else (cutFirst? p cs).map fun (a, b) => (c :: a, b)

/-- The text before and after the last character satisfying `p`. -/
def cutLast? (p : Char → Bool) (cs : List Char) : Option (List Char × List Char) :=
  (cutFirst? p cs.reverse).map fun (a, b) => (b.reverse, a.reverse)

/-- Lower the capital letters `A` to `Z`; every other character stays. -/
def toLower (cs : List Char) : List Char :=
  cs.map Char.toLower

end Chars

/-! ## On strings -/

namespace Text

/-- The operation on strings given by one on characters. -/
def via (f : List Char → List Char) (s : String) : String :=
  String.ofList (f s.toList)

@[simp] theorem toList_via (f : List Char → List Char) (s : String) :
    (via f s).toList = f s.toList := by
  simp [via]

/-- Drop the blanks at both ends. -/
def trim (s : String) : String := via Chars.trim s

/-- Nothing but blanks. -/
def isBlank (s : String) : Bool := s.toList.all Bundleless.isBlank

/-- Drop every slash from both ends. -/
def trimSlashes (s : String) : String := via (Chars.trimWhile (· == '/')) s

/-- Drop every slash from the end. -/
def dropEndSlashes (s : String) : String := via (Chars.dropEndWhile (· == '/')) s

/-- Drop every slash from the start. -/
def dropStartSlashes (s : String) : String := via (List.dropWhile (· == '/')) s

/-- What follows `w` at the start of `s`, if `w` stands there. -/
def stripPrefix? (w s : String) : Option String :=
  (Chars.stripPrefix? w.toList s.toList).map String.ofList

/-- What precedes `w` at the end of `s`, if `w` stands there. -/
def stripSuffix? (w s : String) : Option String :=
  (Chars.stripSuffix? w.toList s.toList).map String.ofList

/-- `s` begins with `w`. -/
def startsWith (w s : String) : Bool := Chars.startsWith w.toList s.toList

/-- `s` ends with `w`. -/
def endsWith (w s : String) : Bool := Chars.endsWith w.toList s.toList

/-- `w` occurs in `s`. -/
def contains (w s : String) : Bool := Chars.contains w.toList s.toList

/-- Replace the first occurrence of `w` in `s` by `r`. -/
def replaceFirst (w r s : String) : String := via (Chars.replaceFirst w.toList r.toList) s

/-- The pieces of `s` between the characters equal to `c`. -/
def splitAt (c : Char) (s : String) : List String :=
  (Chars.splitAt (· == c) s.toList).map String.ofList

/-- Lower the capital letters `A` to `Z`. -/
def toLower (s : String) : String := via Chars.toLower s

/-- The pieces joined by the word `w`. -/
def join (w : String) : List String → String
  | [] => ""
  | [s] => s
  | s :: t :: rest => s ++ w ++ join w (t :: rest)

/-- The order of strings by their characters' code points. -/
def le (s t : String) : Bool := !t.toList.lex s.toList

/-- The strings in the order of their code points. -/
def sorted (xs : List String) : List String := xs.mergeSort le

/-- The lines of a text: what stands between line feeds, without the carriage return before
    the line feed. A text ends its last line with a line feed or without one. -/
def lines (s : String) : List String :=
  let pieces := Chars.splitAt (· == '\n') s.toList
  let ended := pieces.dropLast.map fun piece => (Chars.stripSuffix? ['\r'] piece).getD piece
  let unended := pieces.getLast?.toList.filter (!·.isEmpty)
  (ended ++ unended).map String.ofList

end Text

end Bundleless
