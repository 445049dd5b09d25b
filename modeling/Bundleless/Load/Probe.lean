import Bundleless.Load.Basic

/-! # Probing

    Whether a URL can be reached. A probe asks for the head alone; where that
    is refused as a method, it asks for the whole. Passing conditions are
    waited out as often as the policy allows.
-/

namespace Bundleless.Load

/-- Ask once: the status that was answered. -/
def check (o : ProbeOptions) (url : String) : Attempt Nat := do
  let head ← request .head url
  if !Status.isSuccess head.status && o.allowGetFallback && Status.refusesHead head.status then
    let get ← request .get url
    return get.status
  else return head.status

/-- The outcome of the last attempt is the outcome of the probe. A URL that is not reached is
    noted. -/
def conclude (url : String) : Except Failure Nat → Load ProbeResult
  | .ok status => do
    if Status.isSuccess status then return ⟨true, some status⟩
    else
      info "probe:fail" [("url", .string url), ("status", .ofNat status)]
      return ⟨false, some status⟩
  | .error e => do
    info "probe:fail" [("url", .string url), ("error", .string e.message)]
    return ⟨false, none⟩

/-- The outcome of an attempt may pass. -/
def isPassing (outcome : Except Failure Nat) : Bool :=
  match outcome with
  | .ok status => Status.isRetryable (some status)
  | .error _ => true

/-- Probe with so many retries left; `retry` counts those that were made. -/
def probeFrom (o : ProbeOptions) (url : String) : (left retry : Nat) → Load ProbeResult
  | 0, _ => do conclude url (← (check o url).run)
  | left + 1, retry => do
    let outcome ← (check o url).run
    -- A refusal for good is not waited out.
    if isPassing outcome then
      op (.sleep (o.delay retry))
      probeFrom o url left (retry + 1)
    else conclude url outcome

/-- Probe a URL. -/
def probe (o : ProbeOptions) (url : String) : Load ProbeResult := probeFrom o url o.retries 0

end Bundleless.Load
