import Bundleless.Failure
import Bundleless.Probe.Policy

/-! # Requests

    What is asked of the network, and what it answers. Every status is an
    answer; a failure means that none arrived.
-/

namespace Bundleless

/-- How a URL is asked for. -/
inductive Method where
  /-- Whether it is there. -/
  | head
  /-- What is there. -/
  | get
deriving DecidableEq, Repr, Inhabited

/-- The name of the method. -/
def Method.name : Method → String
  | .head => "HEAD"
  | .get => "GET"

/-- An answer. -/
structure Response where
  status : Nat
  body : String := ""
deriving DecidableEq, Repr, Inhabited

/-- What a request comes to. -/
abbrev Reply := Except Failure Response

end Bundleless
