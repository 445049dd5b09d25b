import Bundleless.Config.Settings

/-! # Invocations

    What a command line asks for: one of three inquiries, on a page and under
    settings that the command line overrides.
-/

namespace Bundleless.Cli

/-! ## Inquiries -/

/-- The commands. -/
inductive Verb where
  /-- Resolve every dependency of a configuration. -/
  | resolve
  /-- The import map of a configuration. -/
  | importMap
  /-- Probe one URL. -/
  | probe
deriving DecidableEq, Repr, Inhabited

namespace Verb

/-- The commands, in the order in which they are presented. -/
def all : List Verb := [.resolve, .importMap, .probe]

/-- The name of the command. -/
def name : Verb → String
  | .resolve => "resolve"
  | .importMap => "import-map"
  | .probe => "probe"

/-- The command of a name. The import map has a second one. -/
def ofName? : String → Option Verb
  | "resolve" => some .resolve
  | "import-map" | "importmap" => some .importMap
  | "probe" => some .probe
  | _ => none

end Verb

/-- What is asked for. -/
inductive Inquiry where
  /-- Resolve every tool and library module of a configuration, and these names under its rules; or
      only list the candidates of each. -/
  | resolve (config : String) (listing : Bool) (names : List String)
  /-- Write the import map of a configuration into a file, or print it. -/
  | importMap (config : String) (out : Option String)
  | probe (url : String)
deriving DecidableEq, Repr, Inhabited

/-- Where the configuration of an inquiry is, if it has one. -/
def Inquiry.config? : Inquiry → Option String
  | .resolve config .. => some config
  | .importMap config _ => some config
  | .probe _ => none

/-- The page where none is named. -/
def defaultPage : String := "https://localhost/"

/-- The configuration where none is named. -/
def defaultConfig : String := "config.json"

/-- A command line that was understood. -/
structure Invocation where
  inquiry : Inquiry
  verbose : Bool := false
  page : String := defaultPage
  /-- What overrides the settings of the same name. -/
  proxyMode : Option String := none
  retries : Option Nat := none
  backoffMs : Option Nat := none
  noGetFallback : Bool := false
deriving DecidableEq, Repr, Inhabited

/-- Settings, overridden by the command line. -/
def Invocation.override (i : Invocation) (s : Settings) : Settings :=
  { s with
    proxyMode := (i.proxyMode.map ProxyMode.ofText).getD s.proxyMode
    probeRetries := i.retries.getD s.probeRetries
    probeBackoffMs := i.backoffMs.getD s.probeBackoffMs
    allowGetFallback := s.allowGetFallback && !i.noGetFallback }

end Bundleless.Cli
