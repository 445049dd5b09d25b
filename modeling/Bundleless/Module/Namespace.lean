import Bundleless.Json.Basic

/-! # Namespaces

    What a loaded value is exposed as: a default export together with named
    exports. A value may say of itself that it is shaped like this already.
-/

namespace Bundleless

/-- The exports of a loaded module. -/
structure Namespace where
  exports : Fields
deriving DecidableEq, Repr, Inhabited

/-- The values that count as true: all but null, false, zero and the empty text. -/
def Json.isTruthy : Json → Bool
  | .null => false
  | .bool b => b
  | .number (.int n) => n != 0
  | .number (.float _ units _) => units != 0
  | .string s => s != ""
  | .array _ | .object _ => true

namespace Namespace

/-- The name of the default export. -/
def defaultKey : String := "default"

/-- The name of the flag of a value that is shaped like a namespace already. -/
def flagKey : String := "__esModule"

/-- Add the exports of a default that nothing stands for yet, its own default and flag left
    out. -/
def lift (members exports : Fields) : Fields :=
  members.foldl
    (fun acc (key, value) =>
      if key = defaultKey ∨ key = flagKey then acc else Fields.insertNew key value acc)
    exports

/-- Expose a loaded value. A flagged object stays as it is. Any other object keeps its own
    exports, is its own default export if it has none, and a default that is an object is lifted.
    Everything else is a default export. -/
def ofValue (value : Json) : Namespace :=
  match value with
  | .object own =>
    if (Fields.get? flagKey own).any Json.isTruthy then ⟨own⟩
    else
      let exports := Fields.insertNew defaultKey value own
      match Fields.get? defaultKey exports with
      | some (.object members) => ⟨lift members exports⟩
      | _ => ⟨exports⟩
  | _ => ⟨[(defaultKey, value)]⟩

/-- The export `key`. -/
def get? (n : Namespace) (key : String) : Option Json := Fields.get? key n.exports

/-- There is an export `key`. -/
def contains (n : Namespace) (key : String) : Bool := Fields.contains key n.exports

/-- The default export, null if there is none. -/
def default (n : Namespace) : Json := (n.get? defaultKey).getD .null

/-- The names of the exports, in the order of their code points. -/
def keys (n : Namespace) : List String := n.exports.map (·.1)

/-- The exports as an object. -/
def toValue (n : Namespace) : Json := .object n.exports

end Namespace

end Bundleless
