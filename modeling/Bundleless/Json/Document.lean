import Bundleless.Json.Basic
import Bundleless.Number.Binary64

/-! # JSON documents

    A document as it is written: the fields of an object in written order, a
    key as often as it was written, and numbers and strings that may stand
    for no value (a number too large, half of a surrogate pair). Such a leaf
    is no fault while nobody asks for its value.

    `Document.read?` takes a text apart in two passes, each a recursion on
    its input: characters to tokens, and tokens to a document by means of a
    stack of unfinished arrays and objects.
-/

namespace Bundleless

/-- A number as written. -/
structure NumberLiteral where
  negative : Bool
  /-- The digits before the point. -/
  whole : List Nat
  /-- The digits after the point, if there is a point. -/
  fraction : Option (List Nat)
  /-- The sign and the digits of the exponent, if there is one. -/
  exponent : Option (Bool × List Nat)
deriving DecidableEq, Repr, Inhabited

/-- A document. A string that stands for no text is `none`. -/
inductive Document where
  | null
  | bool (value : Bool)
  | number (literal : NumberLiteral)
  | string (value : Option String)
  | array (items : List Document)
  | object (fields : List (Option String × Document))
deriving Repr, Inhabited

/-! ## Numbers -/

namespace NumberLiteral

/-- The value of a decimal digit. -/
def digit? (c : Char) : Option Nat :=
  if '0' ≤ c ∧ c ≤ '9' then some (c.toNat - 48) else none

/-- The digits at the start of the text, and the rest. -/
def takeDigits : List Char → List Nat × List Char
  | [] => ([], [])
  | c :: cs =>
    match digit? c with
    | some d => let (ds, rest) := takeDigits cs; (d :: ds, rest)
    | none => ([], c :: cs)

/-- The exponent at the start of the text, and the rest; no exponent is a fault only after `e`. -/
def takeExponent? : List Char → Option (Option (Bool × List Nat) × List Char)
  | c :: cs =>
    if c = 'e' ∨ c = 'E' then
      let (negative, cs) :=
        match cs with
        | '-' :: cs => (true, cs)
        | '+' :: cs => (false, cs)
        | cs => (false, cs)
      let (ds, rest) := takeDigits cs
      if ds.isEmpty then none else some (some (negative, ds), rest)
    else some (none, c :: cs)
  | [] => some (none, [])

/-- The fraction at the start of the text, and the rest. -/
def takeFraction? : List Char → Option (Option (List Nat) × List Char)
  | '.' :: cs =>
    let (ds, rest) := takeDigits cs
    if ds.isEmpty then none else some (some ds, rest)
  | cs => some (none, cs)

/-- Read a whole text as a number. There is at least one digit before the point, and a leading
    zero stands alone. -/
def read? (cs : List Char) : Option NumberLiteral := do
  let (negative, cs) :=
    match cs with
    | '-' :: cs => (true, cs)
    | cs => (false, cs)
  let (whole, cs) := takeDigits cs
  guard (whole.length = 1 ∨ (whole.head?.getD 0 ≠ 0)) -- `0.5` and `10`, but not `01`
  let (fraction, cs) ← takeFraction? cs
  let (exponent, cs) ← takeExponent? cs
  guard cs.isEmpty
  return { negative, whole, fraction, exponent }

/-- The greatest unsigned integer, and the greatest significand. -/
def maxSignificand : Nat := UInt64.size - 1

/-- The greatest exponent that is still counted. -/
def maxExponent : Int := 0x7FFFFFFF

/-- The significand after the digits, as long as it fits, and the digits left over. -/
def accumulate (significand : Nat) : List Nat → Nat × List Nat
  | [] => (significand, [])
  | d :: ds =>
    if maxSignificand < significand * 10 + d then (significand, d :: ds)
    else accumulate (significand * 10 + d) ds

/-- `f * 10 ^ exponent`, one rounding for the power within range and one more for each factor
    `10 ^ -308` before it. Overflow has no value. -/
def scale? : (steps : Nat) → Binary64 → (exponent : Int) → Option Binary64
  | 0, f, _ => some f
  | steps + 1, f, exponent =>
    if exponent.natAbs ≤ 308 then
      let power := Binary64.ofNat (Nat.pow 10 exponent.natAbs)
      if 0 ≤ exponent then
        match f.mul power with
        | .finite m e => some (.finite m e)
        | _ => none
      else some (f.div power)
    else if f.isZero then some f
    else if 0 ≤ exponent then none
    else scale? steps (f.div (Binary64.ofNat (Nat.pow 10 308))) (exponent + 308)

/-- The float with this significand and exponent. -/
def float? (negative : Bool) (significand : Nat) (exponent : Int) : Option JsonNumber :=
  match scale? 4 (Binary64.ofNat significand) exponent with
  | some (.finite m e) => some (.float negative m e)
  | _ => none

/-- The value of a string of digits. -/
def ofDigits (ds : List Nat) : Nat := ds.foldl (fun n d => n * 10 + d) 0

/-- Apply the written exponent to a significand. An exponent beyond all bounds makes a value
    zero, or takes it out of range. -/
def withExponent? (negative : Bool) (significand : Nat) (start : Int) :
    Option (Bool × List Nat) → Option JsonNumber
  | none => float? negative significand start
  | some (expNegative, ds) =>
    let n : Int := ofDigits ds
    if maxExponent < n then
      if significand ≠ 0 ∧ ¬ expNegative then none
      else some (.float negative 0 Binary64.minExponent)
    else float? negative significand (if expNegative then start - n else start + n)

/-- The value written. Digits beyond the greatest significand count only for their place. An
    integer that fits 64 bits stays an integer; negative zero is a float. -/
def value? (l : NumberLiteral) : Option JsonNumber :=
  -- Each digit that is dropped before the point is worth a factor of ten.
  let (significand, dropped) := accumulate 0 l.whole
  match l.fraction, l.exponent, dropped with
  | none, none, [] =>
    if l.negative then
      if significand = 0 ∨ 1 <<< 63 < significand then
        float? true significand 0
      else some (.int (-(significand : Int)))
    else some (.int significand)
  | fraction, exponent, dropped =>
    let ds := fraction.getD []
    let (significand, rest) := accumulate significand ds
    let start : Int := (dropped.length : Int) - ((ds.length - rest.length : Nat) : Int)
    withExponent? l.negative significand start exponent

end NumberLiteral

/-! ## Tokens -/

/-- A piece of a quoted text: a character, or a unit of two bytes given by its code. -/
inductive QuotedPiece where
  | char (c : Char)
  | unit (code : Nat)
deriving DecidableEq, Repr

/-- The text that the pieces stand for. A unit of the high surrogates needs one of the low
    surrogates after it, and those stand nowhere else. -/
def QuotedPiece.text? : List QuotedPiece → Option (List Char)
  | [] => some []
  | .char c :: ps => (text? ps).map (c :: ·)
  | .unit hi :: ps =>
    -- A high surrogate counts only together with the low one right after it.
    if 0xD800 ≤ hi ∧ hi < 0xDC00 then
      match ps with
      | .unit lo :: ps =>
        if 0xDC00 ≤ lo ∧ lo < 0xE000 then
          (text? ps).map (Char.ofNat (0x10000 + (hi - 0xD800) * 0x400 + (lo - 0xDC00)) :: ·)
        else none
      | _ => none
    else if 0xDC00 ≤ hi ∧ hi < 0xE000 then none
    else (text? ps).map (Char.ofNat hi :: ·)

/-- What a text is made of. -/
inductive JsonToken where
  | openArray | closeArray | openObject | closeObject | comma | colon
  | quoted (pieces : List QuotedPiece)
  | digits (text : List Char)
  | word (text : List Char)
deriving DecidableEq, Repr

namespace JsonToken

/-- Where the reader stands: between tokens, in a number, in a word, in quotes, after a
    backslash, or among the four digits of a unit. What was read so far is kept in reverse. -/
inductive Place where
  | between
  | inNumber (text : List Char)
  | inWord (text : List Char)
  | inQuotes (pieces : List QuotedPiece)
  | escaped (pieces : List QuotedPiece)
  | inUnit (pieces : List QuotedPiece) (left code : Nat)
deriving Repr

/-- A character of a number. -/
def isNumberChar (c : Char) : Bool :=
  c.isDigit || c == '-' || c == '+' || c == '.' || c == 'e' || c == 'E'

/-- A character of a word. -/
def isWordChar (c : Char) : Bool := c.isLower

/-- The value of a hexadecimal digit. -/
def hexValue? (c : Char) : Option Nat :=
  if '0' ≤ c ∧ c ≤ '9' then some (c.toNat - 48)
  else if 'a' ≤ c ∧ c ≤ 'f' then some (c.toNat - 87)
  else if 'A' ≤ c ∧ c ≤ 'F' then some (c.toNat - 55)
  else none

/-- The character that a letter after a backslash stands for. -/
def unescape? : Char → Option Char
  | '"' => some '"'
  | '\\' => some '\\'
  | '/' => some '/'
  | 'b' => some '\x08'
  | 'f' => some '\x0c'
  | 'n' => some '\n'
  | 'r' => some '\r'
  | 't' => some '\t'
  | _ => none

/-- Read the first character of a token: the tokens it completes, and where the reader then is. -/
def start? (c : Char) : Option (List JsonToken × Place) :=
  match c with
  | ' ' | '\n' | '\r' | '\t' => some ([], .between)
  | '[' => some ([openArray], .between)
  | ']' => some ([closeArray], .between)
  | '\x7b' => some ([openObject], .between)
  | '\x7d' => some ([closeObject], .between)
  | ',' => some ([comma], .between)
  | ':' => some ([colon], .between)
  | '"' => some ([], .inQuotes [])
  | c =>
    if c.isDigit ∨ c = '-' then some ([], .inNumber [c])
    else if isWordChar c then some ([], .inWord [c])
    else none

/-- Read one character. -/
def next? (place : Place) (c : Char) : Option (List JsonToken × Place) :=
  match place with
  | .between => start? c
  | .inNumber text =>
    if isNumberChar c then some ([], .inNumber (c :: text))
    -- The character ends the number and is read again as the start of what follows.
    else (start? c).map fun (ts, p) => (digits text.reverse :: ts, p)
  | .inWord text =>
    if isWordChar c then some ([], .inWord (c :: text))
    else (start? c).map fun (ts, p) => (word text.reverse :: ts, p)
  | .inQuotes pieces =>
    if c = '"' then some ([quoted pieces.reverse], .between)
    else if c = '\\' then some ([], .escaped pieces)
    else if c.toNat < 0x20 then none
    else some ([], .inQuotes (.char c :: pieces))
  | .escaped pieces =>
    if c = 'u' then some ([], .inUnit pieces 4 0)
    else (unescape? c).map fun c => ([], .inQuotes (.char c :: pieces))
  | .inUnit pieces left code =>
    (hexValue? c).map fun d =>
      let code := code * 16 + d
      if left ≤ 1 then ([], .inQuotes (.unit code :: pieces))
      else ([], .inUnit pieces (left - 1) code)

/-- The tokens completed by the end of the text. -/
def finish? : Place → Option (List JsonToken)
  | .between => some []
  | .inNumber text => some [digits text.reverse]
  | .inWord text => some [word text.reverse]
  | _ => none

/-- The tokens of a text. -/
def read? (place : Place) : List Char → Option (List JsonToken)
  | [] => finish? place
  | c :: cs =>
    match next? place c with
    | none => none
    | some (ts, place) => (read? place cs).map (ts ++ ·)

end JsonToken

/-! ## Documents -/

namespace Document

/-- An array or object that is not closed yet, its contents in reverse. A `member` has its key
    and waits for the value. -/
inductive Frame where
  | array (items : List Document)
  | object (fields : List (Option String × Document))
  | member (fields : List (Option String × Document)) (key : Option String)
deriving Repr

/-- What may come next. -/
inductive Expect where
  | value | valueOrClose | key | keyOrClose | colon
  /-- A value has been read, and what encloses it goes on. -/
  | after (v : Document)
deriving Repr

/-- The document of a token that is a value by itself. -/
def ofToken? : JsonToken → Option Document
  | .quoted pieces => some (.string ((QuotedPiece.text? pieces).map String.ofList))
  | .digits text => (NumberLiteral.read? text).map .number
  | .word ['n', 'u', 'l', 'l'] => some .null
  | .word ['t', 'r', 'u', 'e'] => some (.bool true)
  | .word ['f', 'a', 'l', 's', 'e'] => some (.bool false)
  | _ => none

/-- Begin a value with the token. -/
def begin? (stack : List Frame) : JsonToken → Option (List Frame × Expect)
  | .openArray => some (.array [] :: stack, .valueOrClose)
  | .openObject => some (.object [] :: stack, .keyOrClose)
  | t => (ofToken? t).map fun v => (stack, .after v)

/-- Take one token. -/
def step? : (stack : List Frame) → Expect → JsonToken → Option (List Frame × Expect)
  | stack, .value, t => begin? stack t
  | .array items :: stack, .valueOrClose, .closeArray => some (stack, .after (.array items.reverse))
  | stack, .valueOrClose, t => begin? stack t
  | .object fields :: stack, .key, .quoted pieces
  | .object fields :: stack, .keyOrClose, .quoted pieces =>
    some (.member fields ((QuotedPiece.text? pieces).map String.ofList) :: stack, .colon)
  | .object fields :: stack, .keyOrClose, .closeObject =>
    some (stack, .after (.object fields.reverse))
  | stack, .colon, .colon => some (stack, .value)
  | .array items :: stack, .after v, .comma => some (.array (v :: items) :: stack, .value)
  | .array items :: stack, .after v, .closeArray =>
    some (stack, .after (.array (v :: items).reverse))
  | .member fields key :: stack, .after v, .comma =>
    some (.object ((key, v) :: fields) :: stack, .key)
  | .member fields key :: stack, .after v, .closeObject =>
    some (stack, .after (.object ((key, v) :: fields).reverse))
  | _, _, _ => none

/-- Take all tokens; one whole value has to result. -/
def ofTokens? (stack : List Frame) (expect : Expect) : List JsonToken → Option Document
  | [] =>
    match stack, expect with
    | [], .after v => some v
    | _, _ => none
  | t :: ts =>
    match step? stack expect t with
    | none => none
    | some (stack, expect) => ofTokens? stack expect ts

/-- Read a text as one document. -/
def read? (s : String) : Option Document :=
  (JsonToken.read? .between s.toList).bind (ofTokens? [] .value)

/-! ## Values -/

mutual

/-- The value of a document: every leaf has one, and of the fields with one key the last counts.
    Arrays and objects nest less deep than `depth`. -/
def value? (depth : Nat) : Document → Option Json
  | .null => some .null
  | .bool b => some (.bool b)
  | .number l => l.value?.map .number
  | .string s => s.map .string
  | .array items => if depth ≤ 1 then none else (items? (depth - 1) items).map .array
  | .object fields => if depth ≤ 1 then none else (fields? (depth - 1) fields).map Json.ofFields

/-- The values of the items. -/
def items? (depth : Nat) : List Document → Option (List Json)
  | [] => some []
  | d :: ds =>
    match value? depth d, items? depth ds with
    | some v, some vs => some (v :: vs)
    | _, _ => none

/-- The keys and values of the fields. -/
def fields? (depth : Nat) : List (Option String × Document) → Option (List (String × Json))
  | [] => some []
  | (key, d) :: ds =>
    match key, value? depth d, fields? depth ds with
    | some k, some v, some vs => some ((k, v) :: vs)
    | _, _, _ => none

end

end Document

/-- How deep the arrays and objects of a value may nest. -/
def Json.maxDepth : Nat := 128

/-- Read a text as one value. -/
def Json.read? (s : String) : Option Json :=
  (Document.read? s).bind (Document.value? Json.maxDepth)

end Bundleless
