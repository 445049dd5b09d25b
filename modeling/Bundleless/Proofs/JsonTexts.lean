import Mathlib.Data.Option.Basic
import Bundleless.Json.Document
import Bundleless.Json.Printer

/-! # The texts of a document

    What the reader of documents takes is JSON. The grammar of JSON is stated
    here as relations between what is meant and how it is written, for
    numbers, quoted texts, tokens and documents, and the reader finds the
    document behind each text that the grammar has for it
    (`Document.IsText.read?`). Both printed forms of a value are texts of that
    value (`Json.isText_compact`, `Json.isText_pretty`).
-/

namespace Bundleless

/-! ## Numbers -/

namespace NumberLiteral

/-- Digits as they are written. -/
def digitChars (ds : List Nat) : List Char := ds.map fun d => Char.ofNat (48 + d)

/-- Decimal digits, at least one of them. -/
def AreDigits (ds : List Nat) : Prop := ds ≠ [] ∧ ∀ d ∈ ds, d < 10

/-- The fraction of a number, as it is written. -/
inductive Fraction : Option (List Nat) → List Char → Prop where
  | absent : Fraction none []
  | digits {ds : List Nat} : AreDigits ds → Fraction (some ds) ('.' :: digitChars ds)

/-- The sign of an exponent, as it is written. -/
inductive Sign : Bool → List Char → Prop where
  | absent : Sign false []
  | plus : Sign false ['+']
  | minus : Sign true ['-']

/-- The exponent of a number, as it is written. -/
inductive Exponent : Option (Bool × List Nat) → List Char → Prop where
  | absent : Exponent none []
  | digits {mark : Char} {negative : Bool} {sign : List Char} {ds : List Nat} :
    mark = 'e' ∨ mark = 'E' → Sign negative sign → AreDigits ds →
    Exponent (some (negative, ds)) (mark :: (sign ++ digitChars ds))

/-- A number, as it is written: a zero stands alone before the point. -/
inductive Spelled (l : NumberLiteral) : List Char → Prop where
  | parts {fraction exponent : List Char} :
    AreDigits l.whole → l.whole.length = 1 ∨ l.whole.head? ≠ some 0 →
    Fraction l.fraction fraction → Exponent l.exponent exponent →
    Spelled l
      ((if l.negative then ['-'] else []) ++ (digitChars l.whole ++ (fraction ++ exponent)))

/-- A digit is read back. -/
theorem digit?_ofNat {d : Nat} (h : d < 10) : digit? (Char.ofNat (48 + d)) = some d := by
  have all : ∀ d < 10, digit? (Char.ofNat (48 + d)) = some d := by decide
  exact all d h

/-- Digits are read back up to the first character that is none. -/
theorem takeDigits_digitChars {ds : List Nat} {rest : List Char} (hDs : ∀ d ∈ ds, d < 10)
    (hRest : ∀ c ∈ rest.head?, digit? c = none) :
    takeDigits (digitChars ds ++ rest) = (ds, rest) := by
  induction ds with
  | nil =>
    cases rest with
    | nil => rfl
    | cons c cs => simp [digitChars, takeDigits, hRest c rfl]
  | cons d ds ih =>
    have hd : digit? (Char.ofNat (48 + d)) = some d := digit?_ofNat (hDs d (by simp))
    have hRec := ih fun e he => hDs e (by simp [he])
    simp only [digitChars, List.map_cons, List.cons_append, takeDigits, hd]
    simp only [digitChars] at hRec
    rw [hRec]

theorem takeDigits_digitChars_end {ds : List Nat} (hDs : ∀ d ∈ ds, d < 10) :
    takeDigits (digitChars ds) = (ds, []) := by
  simpa using @takeDigits_digitChars ds [] hDs (by simp)

/-- What digits begin with is a digit. -/
theorem AreDigits.head {ds : List Nat} (h : AreDigits ds) :
    ∃ c cs, digitChars ds = c :: cs ∧ (digit? c).isSome := by
  obtain ⟨hNe, hLt⟩ := h
  obtain ⟨d, ds, rfl⟩ := List.exists_cons_of_ne_nil hNe
  exact ⟨_, _, rfl, by simp [digit?_ofNat (hLt d (by simp))]⟩

/-- The exponent begins with its mark. -/
theorem Exponent.head {e : Option (Bool × List Nat)} {cs : List Char} (h : Exponent e cs) :
    ∀ c ∈ cs.head?, c = 'e' ∨ c = 'E' := by
  cases h with
  | absent => simp
  | digits hMark => simpa using hMark

/-- An exponent up to the end of the text is read back. -/
theorem Exponent.take {e : Option (Bool × List Nat)} {cs : List Char} (h : Exponent e cs) :
    takeExponent? cs = some (e, []) := by
  cases h with
  | absent => rfl
  | @digits mark negative sign ds hMark hSign hDs =>
    have hTake : takeDigits (digitChars ds) = (ds, []) := takeDigits_digitChars_end hDs.2
    obtain ⟨c, cs, hCs, hc⟩ := hDs.head
    have hNe : ds.isEmpty = false := by simpa using hDs.1
    cases hSign with
    | plus | minus => simp [takeExponent?, hMark, hTake, hNe]
    | absent =>
      -- A digit is no sign, so that the digits begin right after the mark.
      have hMinus : c ≠ '-' := by rintro rfl; exact absurd hc (by decide)
      have hPlus : c ≠ '+' := by rintro rfl; exact absurd hc (by decide)
      rw [hCs] at hTake
      simp [takeExponent?, hMark, hCs, hMinus, hPlus, hTake, hNe]

/-- The mark of an exponent is no digit, nor a point. -/
theorem digit?_mark {c : Char} (h : c = 'e' ∨ c = 'E') : digit? c = none ∧ c ≠ '.' := by
  rcases h with rfl | rfl <;> decide

/-- What follows the digits before the point is no digit. -/
theorem Fraction.head {f : Option (List Nat)} {cs rest : List Char} (h : Fraction f cs)
    (hRest : ∀ c ∈ rest.head?, c = 'e' ∨ c = 'E') :
    ∀ c ∈ (cs ++ rest).head?, digit? c = none := by
  cases h with
  | absent => exact fun c hc => (digit?_mark (hRest c hc)).1
  | digits => simp; decide

/-- A fraction before an exponent is read back. -/
theorem Fraction.take {f : Option (List Nat)} {cs rest : List Char} (h : Fraction f cs)
    (hRest : ∀ c ∈ rest.head?, c = 'e' ∨ c = 'E') :
    takeFraction? (cs ++ rest) = some (f, rest) := by
  cases h with
  | absent =>
    cases rest with
    | nil => rfl
    | cons c cs => simp [takeFraction?, (digit?_mark (hRest c rfl)).2]
  | @digits ds hDs =>
    have hNe : ds.isEmpty = false := by simpa using hDs.1
    have hTake := takeDigits_digitChars hDs.2 fun c hc => (digit?_mark (hRest c hc)).1
    simp [takeFraction?, hTake, hNe]

/-- **A number that is written is read.** -/
theorem Spelled.read? {l : NumberLiteral} {cs : List Char} (h : l.Spelled cs) :
    NumberLiteral.read? cs = some l := by
  obtain ⟨negative, whole, f, e⟩ := l
  obtain @⟨fraction, exponent, hWhole, hZero, hFraction, hExponent⟩ := h
  have hTake : takeDigits (digitChars whole ++ (fraction ++ exponent)) =
      (whole, fraction ++ exponent) :=
    takeDigits_digitChars hWhole.2 (hFraction.head hExponent.head)
  have hGuard : whole.length = 1 ∨ whole.head?.getD 0 ≠ 0 := by
    obtain ⟨d, ds, rfl⟩ := List.exists_cons_of_ne_nil hWhole.1
    simpa using hZero
  cases negative with
  | true =>
    simp [NumberLiteral.read?, hTake, hGuard, hFraction.take hExponent.head, hExponent.take, guard]
  | false =>
    -- A digit is no sign, so that the digits begin right away.
    obtain ⟨c, cs, hCs, hc⟩ := hWhole.head
    have hMinus : c ≠ '-' := by rintro rfl; exact absurd hc (by decide)
    rw [hCs] at hTake
    simp_all [NumberLiteral.read?, hFraction.take hExponent.head, hExponent.take, guard]

end NumberLiteral

/-! ## Quoted texts -/

/-- The inside of quotes: a character as it stands, a character by its letter after a backslash,
    or a unit by four hexadecimal digits. -/
inductive QuotedPiece.Spelled : List QuotedPiece → List Char → Prop where
  | nil : Spelled [] []
  | plain {c : Char} {ps : List QuotedPiece} {cs : List Char} :
    c ≠ '"' → c ≠ '\\' → 0x20 ≤ c.toNat → Spelled ps cs → Spelled (.char c :: ps) (c :: cs)
  | escape {letter c : Char} {ps : List QuotedPiece} {cs : List Char} :
    JsonToken.unescape? letter = some c → Spelled ps cs →
    Spelled (.char c :: ps) ('\\' :: letter :: cs)
  | unit {a b c d : Char} {x y z w : Nat} {ps : List QuotedPiece} {cs : List Char} :
    JsonToken.hexValue? a = some x → JsonToken.hexValue? b = some y →
    JsonToken.hexValue? c = some z → JsonToken.hexValue? d = some w → Spelled ps cs →
    Spelled (.unit (((x * 16 + y) * 16 + z) * 16 + w) :: ps)
      ('\\' :: 'u' :: a :: b :: c :: d :: cs)

namespace JsonToken

/-- No letter after a backslash is the mark of a unit. -/
theorem unescape?_ne {letter c : Char} (h : unescape? letter = some c) : letter ≠ 'u' := by
  rintro rfl
  cases h

theorem read?_cons {p q : Place} {c : Char} (h : next? p c = some ([], q)) (cs : List Char) :
    read? p (c :: cs) = read? q cs := by
  simp [read?, h]

/-- **Quotes that are written are read**, up to the closing one. -/
theorem read?_inQuotes {ps : List QuotedPiece} {body : List Char} (h : QuotedPiece.Spelled ps body)
    (acc : List QuotedPiece) (rest : List Char) :
    read? (.inQuotes acc) (body ++ '"' :: rest) =
      (read? .between rest).map (quoted (acc.reverse ++ ps) :: ·) := by
  induction h generalizing acc with
  | nil => simp [read?, next?]
  | plain hQuote hSlash hLow _ ih =>
    have hLow := Nat.not_lt.2 hLow
    simp [read?_cons, next?, hQuote, hSlash, hLow, ih]
  | escape hLetter _ ih => simp [read?_cons, next?, unescape?_ne hLetter, hLetter, ih]
  | unit ha hb hc hd _ ih => simp [read?_cons, next?, ha, hb, hc, hd, ih]

/-! ## Tokens -/

/-- The text does not go on with such a character. -/
def EndsBefore (p : Char → Bool) (rest : List Char) : Prop := ∀ c ∈ rest.head?, p c = false

/-- The characters that are tokens by themselves. -/
def marks : List (Char × JsonToken) :=
  [('[', openArray), (']', closeArray), ('\x7b', openObject), ('\x7d', closeObject), (',', comma),
    (':', colon)]

/-- The characters that may stand between tokens. -/
def blanks : List Char := [' ', '\n', '\r', '\t']

/-- A sequence of tokens, as it is written. A number or a word goes on for as long as it can. -/
inductive Spelled : List JsonToken → List Char → Prop where
  | nil : Spelled [] []
  | blank {c : Char} {ts : List JsonToken} {cs : List Char} :
    c ∈ blanks → Spelled ts cs → Spelled ts (c :: cs)
  | mark {c : Char} {t : JsonToken} {ts : List JsonToken} {cs : List Char} :
    (c, t) ∈ marks → Spelled ts cs → Spelled (t :: ts) (c :: cs)
  | quoted {ps : List QuotedPiece} {body : List Char} {ts : List JsonToken} {cs : List Char} :
    QuotedPiece.Spelled ps body → Spelled ts cs →
    Spelled (.quoted ps :: ts) ('"' :: (body ++ '"' :: cs))
  | digits {c : Char} {text : List Char} {ts : List JsonToken} {cs : List Char} :
    c.isDigit ∨ c = '-' → (∀ d ∈ text, isNumberChar d) → EndsBefore isNumberChar cs →
    Spelled ts cs → Spelled (.digits (c :: text) :: ts) (c :: (text ++ cs))
  | word {c : Char} {text : List Char} {ts : List JsonToken} {cs : List Char} :
    isWordChar c → (∀ d ∈ text, isWordChar d) → EndsBefore isWordChar cs →
    Spelled ts cs → Spelled (.word (c :: text) :: ts) (c :: (text ++ cs))

/-- A token that goes on for as long as it can is read up to its end: characters of its own are
    added, and the first other one is read again as the start of what follows. -/
theorem read?_longest (place : List Char → Place) (token : List Char → JsonToken) {p : Char → Bool}
    (hMore : ∀ acc c, p c → next? (place acc) c = some ([], place (c :: acc)))
    (hEnd : ∀ acc c, p c = false →
      next? (place acc) c = (start? c).map fun x => (token acc.reverse :: x.1, x.2))
    (hFinish : ∀ acc, finish? (place acc) = some [token acc.reverse])
    {text rest : List Char} (hText : ∀ d ∈ text, p d) (hRest : EndsBefore p rest)
    (acc : List Char) :
    read? (place acc) (text ++ rest) =
      (read? .between rest).map (token (acc.reverse ++ text) :: ·) := by
  induction text generalizing acc with
  | nil =>
    cases rest with
    | nil =>
      have hBetween : finish? .between = some [] := rfl
      simp [read?, hFinish, hBetween]
    | cons c cs =>
      have hBetween : next? .between c = start? c := rfl
      have hc : p c = false := hRest c rfl
      cases hs : start? c <;> simp [read?, hBetween, hEnd acc c hc, hs, Function.comp_def]
  | cons d text ih =>
    have hd := hMore acc d (hText d (by simp))
    simp [read?_cons hd, ih fun e he => hText e (by simp [he])]

theorem read?_inNumber {text rest : List Char} (hText : ∀ d ∈ text, isNumberChar d)
    (hRest : EndsBefore isNumberChar rest) (acc : List Char) :
    read? (.inNumber acc) (text ++ rest) =
      (read? .between rest).map (digits (acc.reverse ++ text) :: ·) :=
  read?_longest .inNumber digits (fun _ _ h => if_pos h)
    (fun _ _ h => if_neg (Bool.eq_false_iff.mp h)) (fun _ => rfl) hText hRest acc

theorem read?_inWord {text rest : List Char} (hText : ∀ d ∈ text, isWordChar d)
    (hRest : EndsBefore isWordChar rest) (acc : List Char) :
    read? (.inWord acc) (text ++ rest) =
      (read? .between rest).map (word (acc.reverse ++ text) :: ·) :=
  read?_longest .inWord word (fun _ _ h => if_pos h)
    (fun _ _ h => if_neg (Bool.eq_false_iff.mp h)) (fun _ => rfl) hText hRest acc

/-- A digit or a minus begins a number. -/
theorem start?_number {c : Char} (h : c.isDigit ∨ c = '-') :
    start? c = some ([], .inNumber [c]) := by
  unfold start?
  split <;> first | (exact absurd h (by decide)) | simp [h]

/-- A small letter begins a word. -/
theorem start?_word {c : Char} (h : isWordChar c) : start? c = some ([], .inWord [c]) := by
  -- The reader asks for numbers first.
  have hNumber : ¬ (c.isDigit ∨ c = '-') := by
    rintro (hd | rfl)
    · obtain ⟨hLow, -⟩ := Bool.and_eq_true_iff.mp h
      obtain ⟨-, hHigh⟩ := Bool.and_eq_true_iff.mp hd
      have hNine : 'a'.val ≤ '9'.val :=
        UInt32.le_trans (of_decide_eq_true hLow) (of_decide_eq_true hHigh)
      exact absurd hNine (by decide)
    · exact absurd h (by decide)
  unfold start?
  split <;> first | (exact absurd h (by decide)) | simp [h, hNumber]

/-- **Tokens that are written are read.** -/
theorem Spelled.read? {ts : List JsonToken} {cs : List Char} (h : Spelled ts cs) :
    JsonToken.read? .between cs = some ts := by
  induction h with
  | nil => rfl
  | blank hc _ ih =>
    simp only [blanks, List.mem_cons, List.not_mem_nil, or_false] at hc
    rcases hc with rfl | rfl | rfl | rfl <;> simp [JsonToken.read?, next?, start?, ih]
  | mark hc _ ih =>
    simp only [marks, List.mem_cons, List.not_mem_nil, or_false, Prod.mk.injEq] at hc
    rcases hc with ⟨rfl, rfl⟩ | ⟨rfl, rfl⟩ | ⟨rfl, rfl⟩ | ⟨rfl, rfl⟩ | ⟨rfl, rfl⟩ | ⟨rfl, rfl⟩ <;>
      simp [JsonToken.read?, next?, start?, ih]
  | quoted hBody _ ih => simp [JsonToken.read?, next?, start?, read?_inQuotes hBody, ih]
  | digits hc hText hEnd _ ih =>
    simp [JsonToken.read?, next?, start?_number hc, read?_inNumber hText hEnd, ih]
  | word hc hText hEnd _ ih =>
    simp [JsonToken.read?, next?, start?_word hc, read?_inWord hText hEnd, ih]

end JsonToken

/-! ## Documents -/

namespace Document

mutual

/-- A document, as it is written in tokens. -/
inductive Spelled : Document → List JsonToken → Prop where
  | null : Spelled .null [.word ['n', 'u', 'l', 'l']]
  | true : Spelled (.bool true) [.word ['t', 'r', 'u', 'e']]
  | false : Spelled (.bool false) [.word ['f', 'a', 'l', 's', 'e']]
  | number {l : NumberLiteral} {text : List Char} :
    l.Spelled text → Spelled (.number l) [.digits text]
  | string {ps : List QuotedPiece} {value : Option String} :
    (QuotedPiece.text? ps).map String.ofList = value → Spelled (.string value) [.quoted ps]
  | emptyArray : Spelled (.array []) [.openArray, .closeArray]
  | array {ds : List Document} {ts : List JsonToken} :
    SpelledItems ds ts → Spelled (.array ds) (.openArray :: ts)
  | emptyObject : Spelled (.object []) [.openObject, .closeObject]
  | object {fs : List (Option String × Document)} {ts : List JsonToken} :
    SpelledFields fs ts → Spelled (.object fs) (.openObject :: ts)

/-- The items of an array, one at least, and its end. -/
inductive SpelledItems : List Document → List JsonToken → Prop where
  | last {d : Document} {ts : List JsonToken} :
    Spelled d ts → SpelledItems [d] (ts ++ [.closeArray])
  | cons {d : Document} {ds : List Document} {ts us : List JsonToken} :
    Spelled d ts → SpelledItems ds us → SpelledItems (d :: ds) (ts ++ .comma :: us)

/-- The fields of an object, one at least, and its end. -/
inductive SpelledFields : List (Option String × Document) → List JsonToken → Prop where
  | last {ps : List QuotedPiece} {key : Option String} {d : Document} {ts : List JsonToken} :
    (QuotedPiece.text? ps).map String.ofList = key → Spelled d ts →
    SpelledFields [(key, d)] (.quoted ps :: .colon :: (ts ++ [.closeObject]))
  | cons {ps : List QuotedPiece} {key : Option String} {d : Document}
    {fs : List (Option String × Document)} {ts us : List JsonToken} :
    (QuotedPiece.text? ps).map String.ofList = key → Spelled d ts → SpelledFields fs us →
    SpelledFields ((key, d) :: fs) (.quoted ps :: .colon :: (ts ++ .comma :: us))

end

/-- The text is written for the document. -/
def IsText (d : Document) (text : String) : Prop :=
  ∃ ts, d.Spelled ts ∧ JsonToken.Spelled ts text.toList

/-- Where a value may stand, an array just opened goes on like any other place. -/
theorem step?_valueOrClose (stack : List Frame) {t : JsonToken} (h : t ≠ .closeArray) :
    step? stack .valueOrClose t = step? stack .value t := by
  unfold step?
  split <;> simp_all

/-- A value does not begin with the end of an array. -/
theorem Spelled.head {d : Document} {ts : List JsonToken} (h : d.Spelled ts) :
    ∃ t us, ts = t :: us ∧ t ≠ .closeArray := by
  cases h <;> exact ⟨_, _, rfl, by simp⟩

/-- In an array just opened a value is read as it is anywhere. -/
theorem Spelled.ofTokens?_valueOrClose {d : Document} {ts : List JsonToken} (h : d.Spelled ts)
    (stack : List Frame) (rest : List JsonToken) :
    ofTokens? stack .valueOrClose (ts ++ rest) = ofTokens? stack .value (ts ++ rest) := by
  obtain ⟨t, us, rfl, ht⟩ := h.head
  simp [ofTokens?, step?_valueOrClose stack ht]

/-- The first item of an array is read as every other one. -/
theorem SpelledItems.ofTokens?_valueOrClose {ds : List Document} {ts : List JsonToken}
    (h : SpelledItems ds ts) (stack : List Frame) (rest : List JsonToken) :
    ofTokens? stack .valueOrClose (ts ++ rest) = ofTokens? stack .value (ts ++ rest) := by
  cases h with
  | last hd | cons hd => simpa using hd.ofTokens?_valueOrClose stack _

/-- The first field of an object is read as every other one. -/
theorem SpelledFields.ofTokens?_keyOrClose {fs : List (Option String × Document)}
    {ts : List JsonToken} (h : SpelledFields fs ts) (fields : List (Option String × Document))
    (stack : List Frame) (rest : List JsonToken) :
    ofTokens? (.object fields :: stack) .keyOrClose (ts ++ rest) =
      ofTokens? (.object fields :: stack) .key (ts ++ rest) := by
  cases h <;> rfl

mutual

/-- **A value that is written is read**, whatever encloses it and whatever follows. -/
theorem Spelled.ofTokens? {d : Document} {ts : List JsonToken} (h : d.Spelled ts)
    (stack : List Frame) (rest : List JsonToken) :
    Document.ofTokens? stack .value (ts ++ rest) = Document.ofTokens? stack (.after d) rest := by
  cases h with
  | null | true | false | emptyArray | emptyObject => rfl
  | string hValue => subst hValue; rfl
  | number hl => simp [Document.ofTokens?, step?, begin?, ofToken?, hl.read?]
  | array hItems =>
    -- An array just opened may end at once, but this one goes on with an item.
    have hRead := hItems.ofTokens? [] stack rest
    rw [← hItems.ofTokens?_valueOrClose] at hRead
    exact hRead
  | object hFields =>
    have hRead := hFields.ofTokens? [] stack rest
    rw [← hFields.ofTokens?_keyOrClose] at hRead
    exact hRead

/-- Items that are written are read, after those that the open array has already. -/
theorem SpelledItems.ofTokens? {ds : List Document} {ts : List JsonToken} (h : SpelledItems ds ts)
    (items : List Document) (stack : List Frame) (rest : List JsonToken) :
    Document.ofTokens? (.array items :: stack) .value (ts ++ rest) =
      Document.ofTokens? stack (.after (.array (items.reverse ++ ds))) rest := by
  cases h with
  | last hd =>
    rw [List.append_assoc, hd.ofTokens?]
    simp [Document.ofTokens?, step?]
  | cons hd hDs =>
    rw [List.append_assoc, hd.ofTokens?, List.cons_append]
    simpa [Document.ofTokens?, step?] using hDs.ofTokens? (_ :: items) stack rest

/-- Fields that are written are read, after those that the open object has already. -/
theorem SpelledFields.ofTokens? {fs : List (Option String × Document)} {ts : List JsonToken}
    (h : SpelledFields fs ts) (fields : List (Option String × Document)) (stack : List Frame)
    (rest : List JsonToken) :
    Document.ofTokens? (.object fields :: stack) .key (ts ++ rest) =
      Document.ofTokens? stack (.after (.object (fields.reverse ++ fs))) rest := by
  cases h with
  | last hKey hd =>
    subst hKey
    simp only [List.cons_append, List.append_assoc, Document.ofTokens?, step?, hd.ofTokens?]
    simp
  | cons hKey hd hFs =>
    subst hKey
    simp only [List.cons_append, List.append_assoc, Document.ofTokens?, step?, hd.ofTokens?]
    simpa using hFs.ofTokens? (_ :: fields) stack rest

end

/-- **The reader finds the document of every text.** -/
theorem IsText.read? {d : Document} {text : String} (h : d.IsText text) :
    Document.read? text = some d := by
  obtain ⟨ts, hTs, hText⟩ := h
  have hRead := hTs.ofTokens? [] []
  simp only [List.append_nil] at hRead
  simp [Document.read?, hText.read?, hRead, Document.ofTokens?]

end Document

/-! ## Printed forms -/

namespace Json

mutual

/-- The document that a value is printed as. Numbers are left out. -/
def document? : Json → Option Document
  | .null => some .null
  | .bool b => some (.bool b)
  | .number _ => none
  | .string s => some (.string (some s))
  | .array vs => (documents? vs).map .array
  | .object fs => (members? fs).map .object

def documents? : List Json → Option (List Document)
  | [] => some []
  | v :: vs =>
    match document? v, documents? vs with
    | some d, some ds => some (d :: ds)
    | _, _ => none

def members? : Fields → Option (List (Option String × Document))
  | [] => some []
  | (k, v) :: fs =>
    match document? v, members? fs with
    | some d, some ds => some ((some k, d) :: ds)
    | _, _ => none

end

theorem hexValue?_hexDigit {n : Nat} (h : n < 16) : JsonToken.hexValue? (hexDigit n) = some n := by
  have all : ∀ n < 16, JsonToken.hexValue? (hexDigit n) = some n := by decide
  exact all n h

/-- The piece of a quoted text that a character is printed as: it stands for that character. -/
def IsPieceOf (p : QuotedPiece) (c : Char) : Prop :=
  (∀ ps cs, QuotedPiece.Spelled ps cs → QuotedPiece.Spelled (p :: ps) (escapeChar c ++ cs)) ∧
  ∀ ps, QuotedPiece.text? (p :: ps) = (QuotedPiece.text? ps).map (c :: ·)

/-- A character with a letter of its own. -/
theorem isPieceOf_escape {l c : Char} (h : JsonToken.unescape? l = some c)
    (hc : escapeChar c = ['\\', l]) : IsPieceOf (.char c) c :=
  ⟨fun _ _ hs => by rw [hc]; exact .escape h hs, fun _ => rfl⟩

/-- Any other control character, by its code. -/
theorem isPieceOf_control {c : Char} (h : c.toNat < 0x20)
    (hc : escapeChar c =
      ['\\', 'u', '0', '0', hexDigit (c.toNat / 16), hexDigit (c.toNat % 16)]) :
    IsPieceOf (.unit c.toNat) c := by
  constructor
  · intro ps cs hs
    have hZero : JsonToken.hexValue? '0' = some 0 := by decide
    have hUnit := QuotedPiece.Spelled.unit hZero hZero
      (hexValue?_hexDigit (n := c.toNat / 16) (by omega))
      (hexValue?_hexDigit (n := c.toNat % 16) (by omega)) hs
    have hCode : ((0 * 16 + 0) * 16 + c.toNat / 16) * 16 + c.toNat % 16 = c.toNat := by omega
    rw [hCode] at hUnit
    rw [hc]
    exact hUnit
  · -- It is no half of a pair, so that it stands by itself.
    intro ps
    have hHigh : ¬ (0xD800 ≤ c.toNat ∧ c.toNat < 0xDC00) := by omega
    have hLow : ¬ (0xDC00 ≤ c.toNat ∧ c.toNat < 0xE000) := by omega
    rw [QuotedPiece.text?.eq_def]
    simp [hHigh, hLow]

/-- Each character is printed as one piece. -/
theorem exists_isPieceOf (c : Char) : ∃ p, IsPieceOf p c := by
  by_cases hLetter : c ∈ ['"', '\\', '\n', '\r', '\t', '\x08', '\x0c']
  · simp only [List.mem_cons, List.not_mem_nil, or_false] at hLetter
    rcases hLetter with rfl | rfl | rfl | rfl | rfl | rfl | rfl
    · exact ⟨_, isPieceOf_escape (l := '"') rfl rfl⟩
    · exact ⟨_, isPieceOf_escape (l := '\\') rfl rfl⟩
    · exact ⟨_, isPieceOf_escape (l := 'n') rfl rfl⟩
    · exact ⟨_, isPieceOf_escape (l := 'r') rfl rfl⟩
    · exact ⟨_, isPieceOf_escape (l := 't') rfl rfl⟩
    · exact ⟨_, isPieceOf_escape (l := 'b') rfl rfl⟩
    · exact ⟨_, isPieceOf_escape (l := 'f') rfl rfl⟩
  · simp only [List.mem_cons, List.not_mem_nil, or_false, not_or] at hLetter
    by_cases hLow : c.toNat < 0x20
    · exact ⟨_, isPieceOf_control hLow (by simp [escapeChar, hLetter, hLow])⟩
    · have hc : escapeChar c = [c] := by simp [escapeChar, hLetter, hLow]
      refine ⟨.char c, fun ps cs hs => ?_, fun ps => rfl⟩
      rw [hc]
      exact .plain hLetter.1 hLetter.2.1 (Nat.le_of_not_lt hLow) hs

/-- **A printed text stands for itself.** -/
theorem exists_pieces (cs : List Char) : ∃ ps,
    QuotedPiece.Spelled ps (cs.flatMap escapeChar) ∧ QuotedPiece.text? ps = some cs := by
  induction cs with
  | nil => exact ⟨[], .nil, rfl⟩
  | cons c cs ih =>
    obtain ⟨p, hSpelled, hText⟩ := exists_isPieceOf c
    obtain ⟨ps, hPs, hCs⟩ := ih
    exact ⟨p :: ps, hSpelled ps _ hPs, by simp [hText, hCs]⟩

/-! ### Layout -/

/-- The text consists of these tokens, if it is not followed by a letter. -/
def Shows (ts : List JsonToken) (cs : List Char) : Prop :=
  ∀ us rest, JsonToken.EndsBefore JsonToken.isWordChar rest → JsonToken.Spelled us rest →
    JsonToken.Spelled (ts ++ us) (cs ++ rest)

namespace Shows

variable {ts us : List JsonToken} {cs ds : List Char}

theorem nil : Shows [] [] := fun _ _ _ h => h

/-- A text goes on with one that does not begin with a letter. -/
theorem append {c : Char} (h : Shows ts cs) (h' : Shows us (c :: ds))
    (hc : JsonToken.isWordChar c = false) : Shows (ts ++ us) (cs ++ c :: ds) := by
  intro vs rest hRest hVs
  rw [List.append_assoc, List.append_assoc]
  exact h _ _ (by simpa [JsonToken.EndsBefore] using hc) (h' _ _ hRest hVs)

theorem mark {c : Char} {t : JsonToken} (hc : (c, t) ∈ JsonToken.marks) (h : Shows us ds) :
    Shows (t :: us) (c :: ds) :=
  fun vs rest hRest hVs => .mark hc (h vs rest hRest hVs)

theorem comma (h : Shows us ds) : Shows (.comma :: us) (',' :: ds) := h.mark (by decide)

theorem colon (h : Shows us ds) : Shows (.colon :: us) (':' :: ds) := h.mark (by decide)

theorem blank {c : Char} (hc : c ∈ JsonToken.blanks) (h : Shows us ds) : Shows us (c :: ds) :=
  fun vs rest hRest hVs => .blank hc (h vs rest hRest hVs)

theorem space (h : Shows us ds) : Shows us (' ' :: ds) := h.blank (by decide)

theorem newLine (depth : Nat) (h : Shows us ds) : Shows us (Json.newLine depth ++ ds) := by
  have hSpaces : ∀ n, Shows us (List.replicate n ' ' ++ ds) := by
    intro n
    induction n with
    | zero => exact h
    | succ n ih => exact ih.space
  exact (hSpaces _).blank (by decide)

theorem quote {ps : List QuotedPiece} {text : List Char}
    (hPs : QuotedPiece.Spelled ps (text.flatMap escapeChar)) (h : Shows us ds) :
    Shows (.quoted ps :: us) (Json.quote text ++ ds) := by
  intro vs rest hRest hVs
  have := JsonToken.Spelled.quoted hPs (h vs rest hRest hVs)
  simpa [Json.quote] using this

theorem word {c : Char} (hc : JsonToken.isWordChar c) (hCs : cs.all JsonToken.isWordChar) :
    Shows [.word (c :: cs)] (c :: cs) :=
  fun _ _ hRest hVs => .word hc (List.all_eq_true.mp hCs) hRest hVs

end Shows

mutual

/-- Both printed forms of a value consist of the tokens of its document. -/
theorem exists_tokens {v : Json} {d : Document} (h : v.document? = some d) :
    ∃ ts, d.Spelled ts ∧ Shows ts (compactChars v) ∧ ∀ depth, Shows ts (prettyChars depth v) := by
  cases v with
  | null =>
    obtain rfl : Document.null = d := by simpa [document?] using h
    have hNull : Shows [.word ['n', 'u', 'l', 'l']] ['n', 'u', 'l', 'l'] :=
      .word (by decide) (by decide)
    exact ⟨_, .null, hNull, fun _ => hNull⟩
  | bool b =>
    obtain rfl : Document.bool b = d := by simpa [document?] using h
    cases b with
    | true =>
      have hTrue : Shows [.word ['t', 'r', 'u', 'e']] ['t', 'r', 'u', 'e'] :=
        .word (by decide) (by decide)
      exact ⟨_, .true, hTrue, fun _ => hTrue⟩
    | false =>
      have hFalse : Shows [.word ['f', 'a', 'l', 's', 'e']] ['f', 'a', 'l', 's', 'e'] :=
        .word (by decide) (by decide)
      exact ⟨_, .false, hFalse, fun _ => hFalse⟩
  | number n => cases h
  | string s =>
    obtain rfl : Document.string (some s) = d := by simpa [document?] using h
    obtain ⟨ps, hPs, hText⟩ := exists_pieces s.toList
    have hQuote : Shows [.quoted ps] (quote s.toList) := by simpa using Shows.nil.quote hPs
    exact ⟨_, .string (by simp [hText]), hQuote, fun _ => hQuote⟩
  | array vs =>
    simp only [document?, Option.map_eq_some_iff] at h
    obtain ⟨ds, hDs, rfl⟩ := h
    match vs with
    | [] =>
      obtain rfl : [] = ds := by simpa [documents?] using hDs
      have hEmpty : Shows [.openArray, .closeArray] ['[', ']'] :=
        (Shows.nil.mark (by decide)).mark (by decide)
      exact ⟨_, .emptyArray, hEmpty, fun _ => hEmpty⟩
    | v :: vs =>
      obtain ⟨ts, hTs, hCompact, hPretty⟩ := exists_itemTokens (by simp) hDs
      exact ⟨_, .array hTs, hCompact.mark (by decide),
        fun depth => (hPretty depth).mark (by decide)⟩
  | object fs =>
    simp only [document?, Option.map_eq_some_iff] at h
    obtain ⟨ds, hDs, rfl⟩ := h
    match fs with
    | [] =>
      obtain rfl : [] = ds := by simpa [members?] using hDs
      have hEmpty : Shows [.openObject, .closeObject] ['\x7b', '\x7d'] :=
        (Shows.nil.mark (by decide)).mark (by decide)
      exact ⟨_, .emptyObject, hEmpty, fun _ => hEmpty⟩
    | f :: fs =>
      obtain ⟨ts, hTs, hCompact, hPretty⟩ := exists_fieldTokens (by simp) hDs
      exact ⟨_, .object hTs, hCompact.mark (by decide),
        fun depth => (hPretty depth).mark (by decide)⟩

/-- So do both printed forms of the items of an array. -/
theorem exists_itemTokens {vs : List Json} {ds : List Document} (hNe : vs ≠ [])
    (h : documents? vs = some ds) :
    ∃ ts, Document.SpelledItems ds ts ∧ Shows ts (compactItems vs) ∧
      ∀ depth, Shows ts (prettyItems depth vs) := by
  cases vs with
  | nil => exact absurd rfl hNe
  | cons v vs =>
    simp only [documents?] at h
    split at h
    · next d es hd hEs =>
      obtain rfl : d :: es = ds := by simpa using h
      obtain ⟨ts, hTs, hCompact, hPretty⟩ := exists_tokens hd
      -- What follows a value is a mark or a new line, so that a word at its end is over.
      match vs with
      | [] =>
        obtain rfl : [] = es := by simpa [documents?] using hEs
        have hClose : Shows [.closeArray] [']'] := Shows.nil.mark (by decide)
        refine ⟨_, .last hTs, hCompact.append hClose (by decide), fun depth => ?_⟩
        have hLine := (hPretty (depth + 1)).append (hClose.newLine depth) (by decide)
        simpa [prettyItems, Json.newLine] using hLine.newLine (depth + 1)
      | w :: vs =>
        obtain ⟨us, hUs, hCompact', hPretty'⟩ := exists_itemTokens (by simp) hEs
        refine ⟨_, .cons hTs hUs, ?_, fun depth => ?_⟩
        · have hLine := hCompact.append hCompact'.comma (by decide)
          simpa [compactItems] using hLine
        · have hLine := (hPretty (depth + 1)).append (hPretty' depth).comma (by decide)
          simpa [prettyItems] using hLine.newLine (depth + 1)
    · cases h

/-- So do both printed forms of the fields of an object. -/
theorem exists_fieldTokens {fs : Fields} {ds : List (Option String × Document)} (hNe : fs ≠ [])
    (h : members? fs = some ds) :
    ∃ ts, Document.SpelledFields ds ts ∧ Shows ts (compactFields fs) ∧
      ∀ depth, Shows ts (prettyFields depth fs) := by
  cases fs with
  | nil => exact absurd rfl hNe
  | cons f fs =>
    obtain ⟨k, v⟩ := f
    simp only [members?] at h
    split at h
    · next d es hd hEs =>
      obtain rfl : (some k, d) :: es = ds := by simpa using h
      obtain ⟨ps, hPs, hText⟩ := exists_pieces k.toList
      have hKey : (QuotedPiece.text? ps).map String.ofList = some k := by simp [hText]
      obtain ⟨ts, hTs, hCompact, hPretty⟩ := exists_tokens hd
      match fs with
      | [] =>
        obtain rfl : [] = es := by simpa [members?] using hEs
        have hClose : Shows [.closeObject] ['\x7d'] := Shows.nil.mark (by decide)
        refine ⟨_, .last hKey hTs, ?_, fun depth => ?_⟩
        · have hLine := hCompact.append hClose (by decide)
          simpa [compactFields] using hLine.colon.quote hPs
        · have hLine := (hPretty (depth + 1)).append (hClose.newLine depth) (by decide)
          simpa [prettyFields, Json.newLine] using (hLine.space.colon.quote hPs).newLine (depth + 1)
      | g :: fs =>
        obtain ⟨us, hUs, hCompact', hPretty'⟩ := exists_fieldTokens (by simp) hEs
        refine ⟨_, .cons hKey hTs hUs, ?_, fun depth => ?_⟩
        · have hLine := hCompact.append hCompact'.comma (by decide)
          simpa [compactFields] using hLine.colon.quote hPs
        · have hLine := (hPretty (depth + 1)).append (hPretty' depth).comma (by decide)
          simpa [prettyFields] using (hLine.space.colon.quote hPs).newLine (depth + 1)
    · cases h

end

/-- **The compact form of a value is a text of its document.** -/
theorem isText_compact {v : Json} {d : Document} (h : v.document? = some d) :
    d.IsText v.compact := by
  obtain ⟨ts, hTs, hCompact, -⟩ := exists_tokens h
  refine ⟨ts, hTs, ?_⟩
  simpa [compact] using hCompact [] [] (by simp [JsonToken.EndsBefore]) .nil

/-- **The indented form of a value is a text of its document.** -/
theorem isText_pretty {v : Json} {d : Document} (h : v.document? = some d) :
    d.IsText v.pretty := by
  obtain ⟨ts, hTs, -, hPretty⟩ := exists_tokens h
  refine ⟨ts, hTs, ?_⟩
  simpa [pretty] using hPretty 0 [] [] (by simp [JsonToken.EndsBefore]) .nil

end Json

end Bundleless
