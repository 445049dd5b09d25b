import Bundleless.Config.Reader
import Bundleless.Load.Local

/-! # Startup

    The sequence that brings a page up: the configuration, the tools, the
    styles, the library modules, the entry with what it imports, and last the
    first paint. Nothing is painted when anything before it has failed; the
    failure is shown on the page instead.
-/

namespace Bundleless

/-- What starts a page. -/
structure Startup where
  page : Page
  settings : Settings := {}
deriving DecidableEq, Repr, Inhabited

/-- A page that is up. -/
structure Booted where
  loader : Loader
  /-- The module of the entry. -/
  app : Instance
deriving DecidableEq, Repr

namespace Startup

open Load

/-- The configuration. It is fetched once; after a failure it is fetched again. -/
def loadConfig (s : Startup) : Attempt Config := do
  match ← store .config with
  | some c => return c
  | none =>
    let url ← Attempt.ofExcept (s.page.join s.settings.configUrl)
    let text ← fetchText url.href
    let c ← Attempt.ofExcept (Config.read text)
    -- Only a configuration that could be read is kept.
    store (.setConfig c)
    return c

/-- Decide whether the log is verbose. -/
def openLog (s : Startup) (c : Config) : Load Unit := do
  let verbose := s.page.isVerbose (some c) s.settings.ciLogQueryParam
  op (.setVerbose verbose)
  if verbose then
    info "ci:enabled" [("config", .bool true), ("href", .string s.page.href)]

/-- Fetch the styles, compile them and put them on the page. -/
def applyStyles (s : Startup) (styles : String) : Attempt Unit := do
  let url ← Attempt.ofExcept (s.page.join styles)
  let source ← fetchText url.href
  let css ← ExceptT.mk (host (.compileStyle source))
  host (.injectCss css)

/-- Bring the page up; the first failure ends it. -/
def run (s : Startup) : Attempt Booted := do
  let c ← s.loadConfig
  let l := Loader.ofConfig s.page s.settings c
  s.openLog c
  loadTools l c.tools
  s.applyStyles c.styles
  -- The modules of an earlier start are forgotten; tools are globals, and stay.
  store .clear
  loadLibraries l c.modules
  let app ← runEntry l c.entry c.entryDir
  ExceptT.mk (host (.render c.render app))
  info "bootstrap:success" [("entryFile", .string c.entry), ("scssFile", .string c.styles)]
  return ⟨l, app⟩

/-- Where a failure is shown while the configuration is not known. -/
def defaultRoot : String := ({} : RenderConfig).rootId

/-- Bring the page up. A failure is noted and shown. -/
def bootstrap (s : Startup) : Load (Option Booted) := do
  match ← s.run.run with
  | .ok booted => return some booted
  | .error e =>
    error "bootstrap:error" [("message", .string e.message)]
    let c ← store .config
    let root := (c.map (·.render.rootId)).getD defaultRoot
    host (.showError root ("Bootstrap error: " ++ e.message))
    return none

end Startup

end Bundleless
