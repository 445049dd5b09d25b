import Bundleless.Number.Binary64

/-! # JSON values

    The values that modules, globals and events are made of. The fields of an
    object are kept in the order of their keys' code points, so two objects
    with the same fields are the same value; `Fields.insert` keeps that order.
-/

namespace Bundleless

/-- A number: an integer, or a binary64 number with its sign. -/
inductive JsonNumber where
  | int (value : Int)
  | float (negative : Bool) (units : Nat) (exponent : Int)
deriving DecidableEq, Repr, Inhabited

/-- A JSON value. -/
inductive Json where
  | null
  | bool (value : Bool)
  | number (value : JsonNumber)
  | string (value : String)
  | array (items : List Json)
  | object (fields : List (String × Json))
deriving Repr, Inhabited

/-! ## Equality -/

namespace Json

mutual

/-- Decide whether two values are the same. -/
def decEq : (a b : Json) → Decidable (a = b)
  | .null, .null => isTrue rfl
  | .bool x, .bool y =>
    if h : x = y then isTrue (congrArg _ h) else isFalse fun e => h (by injection e)
  | .number x, .number y =>
    if h : x = y then isTrue (congrArg _ h) else isFalse fun e => h (by injection e)
  | .string x, .string y =>
    if h : x = y then isTrue (congrArg _ h) else isFalse fun e => h (by injection e)
  | .array xs, .array ys =>
    match decEqItems xs ys with
    | isTrue h => isTrue (congrArg _ h)
    | isFalse h => isFalse fun e => h (by injection e)
  | .object xs, .object ys =>
    match decEqFields xs ys with
    | isTrue h => isTrue (congrArg _ h)
    | isFalse h => isFalse fun e => h (by injection e)
  | .null, .bool _ | .null, .number _ | .null, .string _ | .null, .array _ | .null, .object _
  | .bool _, .null | .bool _, .number _ | .bool _, .string _ | .bool _, .array _
  | .bool _, .object _ | .number _, .null | .number _, .bool _ | .number _, .string _
  | .number _, .array _ | .number _, .object _ | .string _, .null | .string _, .bool _
  | .string _, .number _ | .string _, .array _ | .string _, .object _ | .array _, .null
  | .array _, .bool _ | .array _, .number _ | .array _, .string _ | .array _, .object _
  | .object _, .null | .object _, .bool _ | .object _, .number _ | .object _, .string _
  | .object _, .array _ => isFalse (by intro e; injection e)

/-- Decide whether two lists of values are the same. -/
def decEqItems : (xs ys : List Json) → Decidable (xs = ys)
  | [], [] => isTrue rfl
  | [], _ :: _ | _ :: _, [] => isFalse (by intro e; injection e)
  | x :: xs, y :: ys =>
    match decEq x y, decEqItems xs ys with
    | isTrue h, isTrue t => isTrue (by rw [h, t])
    | isFalse h, _ => isFalse fun e => h (by injection e)
    | _, isFalse t => isFalse fun e => t (by injection e)

/-- Decide whether two lists of fields are the same. -/
def decEqFields : (xs ys : List (String × Json)) → Decidable (xs = ys)
  | [], [] => isTrue rfl
  | [], _ :: _ | _ :: _, [] => isFalse (by intro e; injection e)
  | (k, x) :: xs, (l, y) :: ys =>
    if hk : k = l then
      match decEq x y, decEqFields xs ys with
      | isTrue h, isTrue t => isTrue (by rw [hk, h, t])
      | isFalse h, _ => isFalse fun e => h (by injection e with e _; injection e)
      | _, isFalse t => isFalse fun e => t (by injection e)
    else isFalse fun e => hk (by injection e with e _; injection e)

end

instance : DecidableEq Json := decEq

end Json

/-! ## Fields -/

/-- The fields of an object. -/
abbrev Fields := List (String × Json)

namespace Fields

/-- The value of the field `key`. -/
def get? (key : String) : Fields → Option Json
  | [] => none
  | (k, v) :: fs => if k = key then some v else get? key fs

/-- There is a field `key`. -/
def contains (key : String) (fs : Fields) : Bool := (get? key fs).isSome

/-- Set the field `key`, in its place among the keys. -/
def insert (key : String) (value : Json) : Fields → Fields
  | [] => [(key, value)]
  | (k, v) :: fs =>
    if k = key then (key, value) :: fs
    else if key.toList < k.toList then (key, value) :: (k, v) :: fs
    else (k, v) :: insert key value fs

/-- Set the field `key` unless it is there. -/
def insertNew (key : String) (value : Json) (fs : Fields) : Fields :=
  if fs.contains key then fs else fs.insert key value

/-- The fields in the order of their keys; of fields with one key the last. -/
def ofList (fs : List (String × Json)) : Fields :=
  fs.foldl (fun acc (k, v) => acc.insert k v) []

@[simp] theorem get?_nil (key : String) : get? key [] = none := rfl

/-- **Reading after writing**: the written key has the written value, and every other key has
    the value it had. -/
theorem get?_insert (key k : String) (value : Json) (fs : Fields) :
    (fs.insert key value).get? k = if key = k then some value else fs.get? k := by
  induction fs with
  | nil => simp [insert, get?]
  | cons f fs ih =>
    obtain ⟨l, w⟩ := f
    simp only [insert]
    split
    · next h => subst h; simp only [get?]; split <;> simp_all
    · split
      · simp [get?]
      · next h _ =>
        simp only [get?, ih]
        by_cases hl : l = k
        · subst hl; simp [show key ≠ l from fun e => h e.symm]
        · simp [hl]

/-- Writing only where nothing stands keeps what stands. -/
theorem get?_insertNew (key k : String) (value : Json) (fs : Fields) :
    (fs.insertNew key value).get? k =
      if key = k then some ((fs.get? k).getD value) else fs.get? k := by
  unfold insertNew contains
  by_cases h : (get? key fs).isSome
  · obtain ⟨v, hv⟩ := Option.isSome_iff_exists.1 h
    simp only [h, if_true]
    by_cases hk : key = k
    · subst hk; simp [hv]
    · simp [hk]
  · have hn : get? key fs = none := by simpa using h
    by_cases hk : key = k
    · subst hk; simp [hn, get?_insert]
    · simp [hn, get?_insert, hk]

end Fields

namespace Json

/-- The value of the field `key` of an object. -/
def get? (key : String) : Json → Option Json
  | .object fs => Fields.get? key fs
  | _ => none

/-- An object with these fields, the last of each key. -/
def ofFields (fs : List (String × Json)) : Json := .object (Fields.ofList fs)

/-- A list of strings. -/
def ofStrings (xs : List String) : Json := .array (xs.map .string)

/-- A string, or null. -/
def ofOption : Option String → Json
  | some s => .string s
  | none => .null

/-- A count. -/
def ofNat (n : Nat) : Json := .number (.int n)

/-- Nothing is there: `null`. -/
def isNull : Json → Bool
  | .null => true
  | _ => false

end Json

end Bundleless
