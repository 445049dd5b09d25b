import Bundleless.Text.Basic
import Bundleless.Json.Basic

/-! # Settings

    What is set outside the configuration document, by a key and a value as
    texts: the retry policy of probes, the preferred kind of provider, the
    extensions of local modules. Unknown keys and unusable values change
    nothing.
-/

namespace Bundleless

/-! ## Proxy mode -/

/-- Which kind of provider a page prefers. -/
inductive ProxyMode where
  /-- The host of the page decides. -/
  | auto
  /-- Providers for continuous integration. -/
  | proxy
  /-- Providers for production. -/
  | direct
deriving DecidableEq, Repr, Inhabited

namespace ProxyMode

/-- The name of the mode. -/
def name : ProxyMode → String
  | .auto => "auto"
  | .proxy => "proxy"
  | .direct => "direct"

/-- The mode of a name, in capital or small letters; any other name leaves it to the host. -/
def ofText (s : String) : ProxyMode :=
  let s := Text.toLower (Text.trim s)
  if s = "proxy" then .proxy else if s = "direct" then .direct else .auto

end ProxyMode

/-! ## Settings -/

/-- The settings of a loader. -/
structure Settings where
  /-- Where the configuration document is, seen from the page. -/
  configUrl : String := "config.json"
  /-- How often a probe is tried again. -/
  probeRetries : Nat := 2
  /-- The pause before the first retry, in milliseconds. -/
  probeBackoffMs : Nat := 300
  /-- A refused `HEAD` is tried as `GET`. -/
  allowGetFallback : Bool := true
  proxyMode : ProxyMode := .auto
  /-- The extensions of local modules, in the order they are tried. -/
  extensions : List String := [".tsx", ".ts", ".jsx", ".js"]
  clientLogEndpoint : String := "/__client-log"
  ciLogQueryParam : String := "ci"
  /-- How long a request may take, in seconds. -/
  timeout : Nat := 30
deriving DecidableEq, Repr, Inhabited

namespace Settings

/-- Read a number of decimal digits, with or without a plus sign before them, that is less than
    `bound`. -/
def number? (bound : Nat) (s : String) : Option Nat :=
  let ds :=
    match s.toList with
    | '+' :: ds => ds
    | ds => ds
  if ds.isEmpty ∨ ¬ ds.all Char.isDigit then none
  else
    let n := ds.foldl (fun n c => n * 10 + (c.toNat - 48)) 0
    if n < bound then some n else none

/-- Read a list of extensions between commas. Blanks around them do not count, nor do empty ones,
    and a missing dot is put before each. -/
def extensionList (s : String) : List String :=
  ((Text.splitAt ',' s).map Text.trim).filter (· != "") |>.map fun e =>
    if Text.startsWith "." e then e else "." ++ e

/-- Set the value of a key. -/
def set (s : Settings) (key value : String) : Settings :=
  match key with
  | "config-url" => { s with configUrl := value }
  | "probe-retries" => { s with probeRetries := (number? UInt32.size value).getD s.probeRetries }
  | "probe-backoff-ms" =>
    { s with probeBackoffMs := (number? UInt64.size value).getD s.probeBackoffMs }
  | "allow-get-fallback" => { s with allowGetFallback := value == "true" }
  | "proxy-mode" => { s with proxyMode := ProxyMode.ofText value }
  | "extensions" =>
    let es := extensionList value
    if es.isEmpty then s else { s with extensions := es }
  | "client-log-endpoint" => { s with clientLogEndpoint := value }
  | "ci-log-query-param" => { s with ciLogQueryParam := value }
  | "timeout" => { s with timeout := (number? UInt64.size value).getD s.timeout }
  | _ => s

/-! ## Environment -/

/-- What the names of the variables begin with. -/
def variablePrefix : String := "SPACEY_BOOT_"

/-- A character of a variable's name as it stands in a key: in small letters, with a dash for an
    underscore. The sign of the unit kelvin is the one character outside ASCII whose small letter
    lies in ASCII; the others cannot be part of a key. -/
def keyChar (c : Char) : Char :=
  if c = '_' then '-' else if c.toNat = 0x212A then 'k' else c.toLower

/-- The keys that can be set. -/
def keys : List String :=
  ["config-url", "probe-retries", "probe-backoff-ms", "allow-get-fallback", "proxy-mode",
    "extensions", "client-log-endpoint", "ci-log-query-param", "timeout"]

/-- The variable of a key, in capital letters. -/
def variableOf (key : String) : String :=
  variablePrefix ++ Text.via (List.map fun c => if c = '-' then '_' else c.toUpper) key

/-- The variables that set something, in capital letters. -/
def variableNames : List String := keys.map variableOf

/-- The key that a variable sets, if it sets any. -/
def variableKey? (name : String) : Option String :=
  (Text.stripPrefix? variablePrefix name).map (Text.via (List.map keyChar))

/-- Set what the variable sets. -/
def setVariable (s : Settings) (name value : String) : Settings :=
  match variableKey? name with
  | some key => s.set key value
  | none => s

/-- The defaults, overlaid with an environment. -/
def ofEnvironment (env : List (String × String)) : Settings :=
  env.foldl (fun s (name, value) => s.setVariable name value) {}

/-- The settings as a record. -/
def toJson (s : Settings) : Json :=
  .ofFields [
    ("config_url", .string s.configUrl), ("probe_retries", .ofNat s.probeRetries),
    ("probe_backoff_ms", .ofNat s.probeBackoffMs),
    ("allow_get_fallback", .bool s.allowGetFallback), ("proxy_mode", .string s.proxyMode.name),
    ("extensions", .ofStrings s.extensions),
    ("client_log_endpoint", .string s.clientLogEndpoint),
    ("ci_log_query_param", .string s.ciLogQueryParam), ("timeout", .ofNat s.timeout)]

end Settings

end Bundleless
