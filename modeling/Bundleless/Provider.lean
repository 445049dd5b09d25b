import Bundleless.Distinct
import Bundleless.Page
import Bundleless.Table

/-! # Providers

    From the hints of a dependency to the bases under which its package may
    be found, in the order in which they are tried. A base is a URL, a bare
    host or a path on the page's own host, or a short name for one of these.
-/

namespace Bundleless

/-! ## Bases -/

namespace Base

/-- A URL of the web. -/
def isWeb (s : String) : Bool := Text.startsWith "http://" s || Text.startsWith "https://" s

/-- The form of a base in which it is used: with one slash at its end, and a bare host reached
    securely. Blank text is no base and stays empty. -/
def normalize (raw : String) : String :=
  let base := Text.trim raw
  if base == "" then ""
  else if Text.startsWith "/" base || isWeb base then Text.dropEndSlashes base ++ "/"
  else "https://" ++ Text.dropEndSlashes base ++ "/"

/-- The public bases that are tried last. -/
def publicBases : List String := ["https://cdn.jsdelivr.net/npm/", "https://unpkg.com/"]

/-- The short names that need no configuration. -/
def builtinAliases : List (String × String) :=
  [("jsdelivr", "https://cdn.jsdelivr.net/npm/"), ("unpkg", "https://unpkg.com/"),
    ("esm.sh", "https://esm.sh/")]

end Base

/-! ## Hints -/

/-- What a dependency or a rule says about its providers. -/
structure Hints where
  provider : Option String
  ci : Option String
  production : Option String
  allowsFallback : Bool
deriving DecidableEq, Repr, Inhabited

namespace Hints

/-- A hint, unless it is blank. -/
def notBlank (hint : Option String) : Option String := hint.filter (!Text.isBlank ·)

/-- The hints of a dependency. -/
def ofDescriptor (d : Descriptor) : Hints :=
  ⟨notBlank d.provider, notBlank d.ciProvider, notBlank d.productionProvider, d.allowsFallback⟩

/-- The hints of a rule. -/
def ofRule (r : Rule) : Hints :=
  ⟨notBlank r.provider, notBlank r.ciProvider, notBlank r.productionProvider, r.allowsFallback⟩

end Hints

/-! ## The providers of a page -/

/-- The providers a page can use. -/
structure Providers where
  page : Page
  /-- Short names and their bases. -/
  aliases : Table String := []
  /-- The base where nothing else is said. -/
  default : Option String := none
  /-- The bases that are tried last. -/
  fallbacks : List String := []
deriving DecidableEq, Repr, Inhabited

namespace Providers

/-- Replace the configured short names. A configured name goes before a built-in one; a name or a
    base that is blank is left out. -/
def setAliases (p : Providers) (configured : List (String × String)) : Providers :=
  let entries := (Base.builtinAliases ++ configured).filterMap fun (name, base) =>
    let base := Base.normalize base
    if name = "" ∨ base = "" then none else some (name, base)
  { p with aliases := Table.ofList entries }

/-- Replace the default base. -/
def setDefault (p : Providers) (base : Option String) : Providers :=
  { p with default := (base.map Base.normalize).filter (· != "") }

/-- The base that a text stands for. -/
def baseOf (p : Providers) (raw : String) : String :=
  let name := Text.trim raw
  (p.aliases.get? name).getD (Base.normalize name)

/-- Replace the bases that are tried last. Without any, the public ones are restored. -/
def setFallbacks (p : Providers) (raw : List String) : Providers :=
  let bases := (raw.map p.baseOf).filter (· != "")
  { p with fallbacks := if bases.isEmpty then Base.publicBases else bases }

/-- The providers of a page without configuration. -/
def ofPage (page : Page) : Providers :=
  (({ page } : Providers).setAliases []).setFallbacks []

/-- Apply the configuration. -/
def configure (p : Providers) (c : Config) : Providers :=
  ((p.setAliases c.providers.aliases).setDefault c.providers.default).setFallbacks
    c.fallbackProviders

/-- The provider that goes first: of those for continuous integration and for production the one
    that the page prefers, if either is given; else the general one or the default. -/
def preferred? (p : Providers) (h : Hints) : Option String :=
  if h.ci.isSome ∨ h.production.isSome then
    if p.page.prefersCi then h.ci.or h.production else h.production.or h.ci
  else h.provider.or p.default

/-- The bases that the hints stand for, each once. -/
def bases (p : Providers) (hints : List String) : List String :=
  Distinct.firsts ((hints.map p.baseOf).filter (· != ""))

/-- The bases that are tried last, if they may be. -/
def lastResort (p : Providers) (h : Hints) : List String :=
  if h.allowsFallback then p.fallbacks else []

/-- The bases of a dependency: the preferred one, the general one, those for continuous integration
    and for production, and the last resort. -/
def basesFor (p : Providers) (h : Hints) : List String :=
  p.bases ([p.preferred? h, h.provider, h.ci, h.production].filterMap id ++ p.lastResort h)

/-- The bases of a rule: its three providers, from the one the page prefers to the one it prefers
    least; the default if there is none of them; and the last resort. -/
def ruleBases (p : Providers) (h : Hints) : List String :=
  let own :=
    (if p.page.prefersCi then [h.ci, h.provider, h.production]
      else [h.production, h.provider, h.ci]).filterMap id
  let own := if (p.bases own).isEmpty then p.default.toList else own
  p.bases (own ++ p.lastResort h)

end Providers

end Bundleless
