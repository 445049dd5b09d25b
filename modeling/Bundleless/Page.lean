import Bundleless.Config.Basic
import Bundleless.Config.Settings
import Bundleless.Failure
import Bundleless.Url.Parser

/-! # Pages

    The page on which the loader runs: its URL, and what follows from it for
    the choice of providers and for the log.
-/

namespace Bundleless

/-- A page. -/
structure Page where
  location : Url
  mode : ProxyMode := .auto
  /-- Verbose logging is forced on or off. -/
  ciOverride : Option Bool := none
deriving DecidableEq, Repr, Inhabited

namespace Page

/-- The page at a URL. -/
def read (href : String) : Except Failure Page :=
  match Url.parse href with
  | .ok u => .ok { location := u }
  | .error e => .error (.invalidUrl e)

/-- The URL of the page. -/
def href (p : Page) : String := p.location.href

/-- The hosts of the own machine. -/
def loopbackHosts : List String := ["localhost", "127.0.0.1"]

/-- The page comes from the own machine. -/
def isLoopback (p : Page) : Bool := p.location.hostText?.any loopbackHosts.contains

/-- Providers for continuous integration go before those for production. -/
def prefersCi (p : Page) : Bool :=
  match p.mode with
  | .proxy => true
  | .direct => false
  | .auto => p.isLoopback

/-- A value of the query that switches verbose logging on. -/
def isYes (value : String) : Bool := value == "1" || Text.toLower value == "true"

/-- The log is verbose: by force, by the query of the page, on the own machine, or because the
    configuration says so. -/
def isVerbose (p : Page) (config : Option Config) (param : String) : Bool :=
  match p.ciOverride with
  | some forced => forced
  | none =>
    p.location.queryPairs.any (fun (name, value) => name == param && isYes value)
      || p.isLoopback || config.any (·.ciLogging)

/-- Resolve a reference against the page. -/
def join (p : Page) (reference : String) : Except Failure Url :=
  match p.location.join reference with
  | .ok u => .ok u
  | .error e => .error (.invalidUrl e)

end Page

end Bundleless
