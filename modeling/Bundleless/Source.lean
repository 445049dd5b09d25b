import Bundleless.Config.Basic
import Bundleless.Distinct

/-! # Sources

    The specifiers that the source of a module names. They are found by their
    form alone: an import statement with a quoted specifier, or a call of
    `require` with one. The source is not parsed.
-/

namespace Bundleless.Source

/-! ## Forms -/

/-- A quotation mark. -/
def isQuote (c : Char) : Bool := c == '"' || c == '\''

/-- The characters that open a call of `require`. -/
def requireCall : List Char := ['r', 'e', 'q', 'u', 'i', 'r', 'e', '(']

/-- The word that opens an import statement. -/
def importWord : List Char := ['i', 'm', 'p', 'o', 'r', 't']

/-- The word before the specifier of an import statement. -/
def fromWord : List Char := ['f', 'r', 'o', 'm']

/-- What follows the quotation mark at the start of the text, up to the next one: a text that is
    not empty. The second part is what follows that mark. -/
def quoted? : List Char → Option (List Char × List Char)
  | [] => none
  | c :: cs =>
    if isQuote c then
      match cs.span (!isQuote ·) with
      | ([], _) => none
      | (spec, _ :: rest) => some (spec, rest)
      | (_, []) => none
    else none

/-- The text between `import` and the quotation mark: blanks alone, or a blank, a clause that is not
    empty, and `from` with blanks after it. -/
def isClause (text : List Char) : Bool :=
  match text with
  | [] => false
  | c :: rest =>
    isBlank c &&
      (rest.all isBlank ||
        -- From the end: at least one blank, then the word.
        match rest.reverse.span isBlank with
        | ([], _) => false
        | (_ :: _, front) =>
          match Chars.stripPrefix? fromWord.reverse front with
          | some clause => !clause.isEmpty
          | none => false)

/-- The import statement at the start of the text: its specifier, and what follows it. -/
def importAt? (cs : List Char) : Option (List Char × List Char) := do
  let rest ← Chars.stripPrefix? importWord cs
  -- The clause has no quotation mark, so it ends at the first one.
  let (clause, rest) := rest.span (!isQuote ·)
  if isClause clause then quoted? rest else none

/-- The call of `require` at the start of the text: its specifier, and what follows it. -/
def requireAt? (cs : List Char) : Option (List Char × List Char) := do
  let rest ← Chars.stripPrefix? requireCall cs
  let (spec, rest) ← quoted? (rest.dropWhile isBlank)
  match rest.dropWhile isBlank with
  | ')' :: rest => some (spec, rest)
  | _ => none

/-! ## Scanning -/

/-- The specifiers of all statements of one form, after the first `skip` characters. Where a
    statement stands, the search goes on after it, else with the next character. -/
def scan (at? : List Char → Option (List Char × List Char)) :
    (skip : Nat) → List Char → List (List Char)
  | _, [] => []
  | skip + 1, _ :: cs => scan at? skip cs
  | 0, c :: cs =>
    match at? (c :: cs) with
    -- `rest` is a tail of `cs`; the search skips what lies before it.
    | some (spec, rest) => spec :: scan at? (cs.length - rest.length) cs
    | none => scan at? 0 cs

/-- The specifiers that a source names, each once: those of its imports, then those of its calls of
    `require`. -/
def specifiers (source : String) : List String :=
  let cs := source.toList
  Distinct.firsts ((scan importAt? 0 cs ++ scan requireAt? 0 cs).map String.ofList)

/-- The specifiers of a source that a rule covers. -/
def dynamicSpecifiers (source : String) (rules : List Rule) : List String :=
  (specifiers source).filter fun spec => (Rule.find? rules spec).isSome

end Bundleless.Source
