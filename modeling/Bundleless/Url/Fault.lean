/-! # Faults of a URL

    Why a text is no URL, with the wording of each reason.
-/

namespace Bundleless.Url

/-- A reason why a text is no URL. -/
inductive Fault where
  | emptyHost
  | invalidDomain
  | invalidPort
  | invalidIpv4
  | invalidIpv6
  | invalidDomainCharacter
  /-- A relative reference, and nothing to resolve it against. -/
  | noBase
  /-- A relative reference against a URL with an opaque path. -/
  | opaqueBase
deriving DecidableEq, Repr, Inhabited

/-- The wording of the reason. -/
def Fault.message : Fault → String
  | .emptyHost => "empty host"
  | .invalidDomain => "invalid international domain name"
  | .invalidPort => "invalid port number"
  | .invalidIpv4 => "invalid IPv4 address"
  | .invalidIpv6 => "invalid IPv6 address"
  | .invalidDomainCharacter => "invalid domain character"
  | .noBase => "relative URL without a base"
  | .opaqueBase => "relative URL with a cannot-be-a-base base"

end Bundleless.Url
