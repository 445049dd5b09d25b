import Bundleless.Config.Basic
import Bundleless.Json.Printer
import Bundleless.Table

/-! # Import maps

    The map from the specifiers of library modules to the URLs they were
    found under, in the form in which a page declares it.
-/

namespace Bundleless

/-- A map from specifiers to URLs. -/
structure ImportMap where
  imports : Table String := []
deriving DecidableEq, Repr, Inhabited

namespace ImportMap

/-- Map every specifier of a dependency to a URL. The last dependency that claims a specifier has
    it. -/
def insert (m : ImportMap) (d : Descriptor) (url : String) : ImportMap :=
  ⟨d.specifiers.foldl (fun t spec => t.insert spec url) m.imports⟩

/-- The URL of a specifier. -/
def get? (m : ImportMap) (specifier : String) : Option String := m.imports.get? specifier

/-- The number of specifiers. -/
def size (m : ImportMap) : Nat := m.imports.length

/-- Nothing is mapped. -/
def isEmpty (m : ImportMap) : Bool := m.imports.isEmpty

/-- The map as a record, its specifiers in the order of their code points. -/
def toJson (m : ImportMap) : Json :=
  .ofFields [("imports", .ofFields (m.imports.map fun (spec, url) => (spec, .string url)))]

/-- The map as it is declared on a page. -/
def text (m : ImportMap) : String := m.toJson.pretty

end ImportMap

end Bundleless
