import Bundleless.Json.Document

/-! # Reading records from documents

    A record of the configuration may be written as an object, or as an array
    of its fields in the order of their declaration. In an object a field has
    one or more spellings; keys that spell no field are passed over, and a
    field written twice, under whichever spellings, is refused. An array may
    stop early but may not be too long. In both forms a field that is not
    written is absent.
-/

namespace Bundleless.Document

/-! ## Fields of a record -/

/-- The documents written under one of the spellings. -/
def under (spellings : List String) (fields : List (Option String × Document)) : List Document :=
  fields.filterMap fun (key, d) =>
    match key with
    | some k => if spellings.contains k then some d else none
    | none => none

/-- The one document of the list, if there is any; more are refused. -/
def atMostOne? : List Document → Option (Option Document)
  | [] => some none
  | [d] => some (some d)
  | _ :: _ :: _ => none

/-- What is written for each field of a record, given the spellings of its fields. -/
def record? (spellings : List (List String)) : Document → Option (List (Option Document))
  | .array items =>
    if items.length ≤ spellings.length then
      some (items.map some ++ List.replicate (spellings.length - items.length) none)
    else none
  | .object fields =>
    if fields.all (·.1.isSome) then spellings.mapM fun names => atMostOne? (under names fields)
    else none
  | _ => none

/-! ## Values of fields -/

/-- A string. -/
def text? : Document → Option String
  | .string s => s
  | _ => none

/-- A truth value. -/
def bool? : Document → Option Bool
  | .bool b => some b
  | _ => none

/-- A list, each item read by `f`. -/
def list? {α : Type} (f : Document → Option α) : Document → Option (List α)
  | .array items => items.mapM f
  | _ => none

/-- A field that has a default. -/
def orDefault? {α : Type} (default : α) (f : Document → Option α) : Option Document → Option α
  | none => some default
  | some d => f d

/-- A field that may be absent; `null` is absent too. -/
def optional? {α : Type} (f : Document → Option α) : Option Document → Option (Option α)
  | none | some .null => some none
  | some d => (f d).map some

/-- A table of strings; of a key written twice the last value counts. -/
def table? : Document → Option (List (String × String))
  | .object fields => do
    let entries ← fields.mapM fun (key, d) => do return (← key, ← d.text?)
    return entries.foldl (fun acc (k, v) => acc.filter (·.1 != k) ++ [(k, v)]) []
  | _ => none

/-- A name out of a list: a string, or an object with that name as its one key and `null` as its
    value. -/
def name? : Document → Option String
  | .string s => s
  | .object [(some key, .null)] => some key
  | _ => none

end Bundleless.Document
