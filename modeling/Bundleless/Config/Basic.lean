import Bundleless.Text.Basic

/-! # Configuration

    The configuration document of a page: the remote dependencies it
    declares, the rules that stand for whole families of them, the providers
    they come from, and how the application is rendered.
-/

namespace Bundleless

/-! ## Dependencies -/

/-- How a remote dependency becomes a namespace. -/
inductive ModuleFormat where
  /-- A script that publishes a global. -/
  | global
  /-- A module that is imported by its URL. -/
  | esm
deriving DecidableEq, Repr, Inhabited

namespace ModuleFormat

/-- The name of the format. -/
def name : ModuleFormat → String
  | .global => "global"
  | .esm => "esm"

/-- The format of a name; `module` is a second name of `esm`. -/
def ofName? : String → Option ModuleFormat
  | "global" => some .global
  | "esm" | "module" => some .esm
  | _ => none

end ModuleFormat

/-- One remote dependency, a tool or a library module. -/
structure Descriptor where
  /-- The key in the registry, and the package unless `package` says otherwise. -/
  name : String := ""
  package : Option String := none
  version : Option String := none
  /-- A URL to be used as it stands. -/
  url : Option String := none
  provider : Option String := none
  ciProvider : Option String := none
  productionProvider : Option String := none
  file : Option String := none
  /-- A path inside the package; it goes before `file`. -/
  path : Option String := none
  pathPrefix : Option String := none
  allowFallback : Option Bool := none
  /-- The global that the script is expected to publish. -/
  global : Option String := none
  format : ModuleFormat := .global
  /-- The names it can be imported under; the name itself if there are none. -/
  importSpecifiers : List String := []
deriving DecidableEq, Repr, Inhabited

namespace Descriptor

/-- The package named in its URLs. -/
def packageName (d : Descriptor) : String := d.package.getD d.name

/-- Public fallback providers may be tried. -/
def allowsFallback (d : Descriptor) : Bool := d.allowFallback != some false

/-- The URL that is used as it stands, if one is given. -/
def verbatimUrl? (d : Descriptor) : Option String := d.url.filter (· != "")

/-- A dependency needs a URL or a name. -/
def isValid (d : Descriptor) : Bool := d.verbatimUrl?.isSome || !Text.isBlank d.name

/-- The names under which the dependency can be imported, empty ones left out. -/
def specifiers (d : Descriptor) : List String :=
  (if d.importSpecifiers.isEmpty then [d.name] else d.importSpecifiers).filter (· != "")

end Descriptor

/-! ## Rules -/

/-- A rule for a family of dependencies: names with a common beginning, of which the rest is
    called the icon. -/
structure Rule where
  start : String := ""
  package : Option String := none
  version : Option String := none
  /-- The file of an icon; the first `\x7bicon\x7d` in it is replaced. -/
  filePattern : Option String := none
  /-- The global of an icon, with dots; the first `\x7bicon\x7d` in it is replaced. -/
  globalPattern : Option String := none
  pathPrefix : Option String := none
  provider : Option String := none
  ciProvider : Option String := none
  productionProvider : Option String := none
  allowFallback : Option Bool := none
  format : ModuleFormat := .global
deriving DecidableEq, Repr, Inhabited

namespace Rule

/-- The name falls under the rule. -/
def covers (r : Rule) (name : String) : Bool := r.start != "" && Text.startsWith r.start name

/-- What follows the common beginning; the whole name if it does not begin so. -/
def icon (r : Rule) (name : String) : String := (Text.stripPrefix? r.start name).getD name

/-- The package named in its URLs: the common beginning without `/*`, `*` or `/` at its end,
    unless one is given. -/
def packageName (r : Rule) : String :=
  match r.package with
  | some p => p
  | none =>
    let stem := (Text.stripSuffix? "*" r.start).getD r.start
    (Text.stripSuffix? "/" stem).getD stem

/-- The mark that is replaced in patterns. -/
def iconMark : String := "\x7bicon\x7d"

/-- The file of an icon. -/
def fileFor (r : Rule) (icon : String) : String :=
  Text.replaceFirst iconMark icon (r.filePattern.getD (iconMark ++ ".js"))

/-- The global of an icon. -/
def globalFor (r : Rule) (icon : String) : String :=
  Text.replaceFirst iconMark icon (r.globalPattern.getD iconMark)

/-- Public fallback providers may be tried. -/
def allowsFallback (r : Rule) : Bool := r.allowFallback != some false

/-- The first rule that covers the name. -/
def find? (rules : List Rule) (name : String) : Option Rule := rules.find? (·.covers name)

end Rule

/-! ## The document -/

/-- The providers named by the configuration. -/
structure ProviderConfig where
  /-- The base for dependencies that name no provider. -/
  default : Option String := none
  /-- Short names of bases, in the order of their code points. -/
  aliases : List (String × String) := []
deriving DecidableEq, Repr, Inhabited

/-- How the application is rendered. -/
structure RenderConfig where
  rootId : String := "root"
  domModule : Option String := none
  reactModule : Option String := none
  createRoot : Option String := none
  renderMethod : String := "render"
deriving DecidableEq, Repr, Inhabited

/-- The configuration of a page. -/
structure Config where
  entry : String := "main.tsx"
  styles : String := "styles.scss"
  tools : List Descriptor := []
  modules : List Descriptor := []
  dynamicModules : List Rule := []
  providers : ProviderConfig := {}
  fallbackProviders : List String := []
  render : RenderConfig := {}
  ciLogging : Bool := false
deriving DecidableEq, Repr, Inhabited

namespace Config

/-- The directory of the entry file; nothing for an entry beside the page. -/
def entryDir (c : Config) : String :=
  match Chars.cutLast? (· == '/') c.entry.toList with
  | some (dir, _) => String.ofList dir
  | none => ""

end Config

end Bundleless
