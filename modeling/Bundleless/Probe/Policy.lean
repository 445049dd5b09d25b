import Bundleless.Config.Settings
import Bundleless.Number.Binary64

/-! # The retry policy

    When a probe is tried again, and after which pause. The pauses grow by
    one half from retry to retry.
-/

namespace Bundleless

/-- How a URL is probed. -/
structure ProbeOptions where
  /-- How often the probe is tried again. -/
  retries : Nat := 2
  /-- The pause before the first retry, in milliseconds. -/
  backoffMs : Nat := 300
  /-- A refused `HEAD` is tried as `GET`. -/
  allowGetFallback : Bool := true
deriving DecidableEq, Repr, Inhabited

namespace ProbeOptions

/-- The policy of the settings. -/
def ofSettings (s : Settings) : ProbeOptions :=
  ⟨s.probeRetries, s.probeBackoffMs, s.allowGetFallback⟩

/-- The factor by which pauses grow. -/
def growth : Binary64 := .ofRatio 3 2

/-- The pause before a retry, in whole milliseconds below `2 ^ 64`. Retries are counted from zero,
    in the integers of 32 bits. -/
def delay (o : ProbeOptions) (retry : Int) : Nat :=
  (Binary64.mul (.ofNat o.backoffMs) (growth.pow (retry.bmod UInt32.size))).truncate
    (UInt64.size - 1)

end ProbeOptions

/-- The outcome of a probe. -/
structure ProbeResult where
  reachable : Bool
  /-- The status that decided; nothing if no response arrived. -/
  status : Option Nat
deriving DecidableEq, Repr, Inhabited

namespace Status

/-- A success. -/
def isSuccess (status : Nat) : Bool := 200 ≤ status && status < 300

/-- A passing condition: no response, a fault of the server, or too many requests. -/
def isRetryable : Option Nat → Bool
  | none | some 0 => true
  | some s => 500 ≤ s || s == 429

/-- The method was refused, not the request. -/
def refusesHead (status : Nat) : Bool := status == 405 || status == 403

end Status

end Bundleless
