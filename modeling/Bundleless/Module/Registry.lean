import Bundleless.Module.Namespace
import Bundleless.Table
import Bundleless.Text.Quoted

/-! # The registry

    The modules that are loaded, each under one or more keys. Keys are never
    removed. A key that is registered again gets the new module and keeps its
    place in the order of first registration.
-/

namespace Bundleless

/-- A namespace together with its identity: whoever gets the same module gets the same number. -/
structure Instance where
  id : Nat
  exposed : Namespace
deriving DecidableEq, Repr, Inhabited

/-- The loaded modules by their keys. -/
structure Registry where
  entries : Table Instance := []
  /-- The keys in the order of their first registration. -/
  order : List String := []
deriving DecidableEq, Repr, Inhabited

namespace Registry

/-- The module under `key`. -/
def get? (r : Registry) (key : String) : Option Instance := r.entries.get? key

/-- A module is registered under `key`. -/
def contains (r : Registry) (key : String) : Bool := r.entries.contains key

/-- Register a module under `key`, in place of the one that was there. -/
def insert (r : Registry) (key : String) (m : Instance) : Registry where
  entries := r.entries.insert key m
  order := if r.contains key then r.order else r.order ++ [key]

/-- The keys in the order of their first registration. -/
def keys (r : Registry) : List String := r.order

/-- The number of keys. -/
def size (r : Registry) : Nat := r.entries.length

/-- Nothing is registered. -/
def isEmpty (r : Registry) : Bool := r.entries.isEmpty

/-- A description for diagnosis. -/
def describe (r : Registry) : String :=
  "ModuleRegistry \x7b keys: " ++ Text.quotedList r.keys ++ " \x7d"

/-- The module registered last under a key is the one found there. -/
theorem get?_insert (r : Registry) (key k : String) (m : Instance) :
    (r.insert key m).get? k = if key = k then some m else r.get? k :=
  Table.get?_insert key k m r.entries

/-- Registering forgets no key. -/
theorem contains_insert (r : Registry) (key k : String) (m : Instance) :
    (r.insert key m).contains k = (decide (key = k) || r.contains k) :=
  Table.contains_insert key k m r.entries

/-- A key is there if a module is found under it. -/
theorem contains_iff (r : Registry) (key : String) :
    r.contains key = true ↔ ∃ m, r.get? key = some m :=
  Option.isSome_iff_exists

end Registry

end Bundleless
