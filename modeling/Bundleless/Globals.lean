import Bundleless.Json.Basic
import Bundleless.Text.Basic

/-! # Globals

    The named values that scripts publish on the page. A path with dots goes
    down into the values: `Icons.Home` is the field `Home` of the global
    `Icons`.
-/

namespace Bundleless

/-- The globals of a page. -/
abbrev Globals := Fields

namespace Globals

/-- Go down into a value along a path. -/
def descend : (path : List String) → Json → Option Json
  | [], v => some v
  | key :: path, v => (v.get? key).bind (descend path)

/-- The parts of a path between its dots, empty ones left out. -/
def segments (path : String) : List String := (Text.splitAt '.' path).filter (· != "")

/-- The value at a path, unless it is null. -/
def lookup (globals : Globals) (path : String) : Option Json :=
  match segments path with
  | [] => none
  | name :: rest =>
    ((Fields.get? name globals).bind (descend rest)).filter fun v => !v.isNull

end Globals

end Bundleless
