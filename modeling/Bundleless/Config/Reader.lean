import Bundleless.Config.Basic
import Bundleless.Failure
import Bundleless.Json.Record

/-! # Reading configurations

    Every record of the configuration is read by the rules of
    `Bundleless.Json.Record`: field by field in the order of declaration, under
    each of its spellings, absent fields taking their defaults. After that
    every declared dependency has to have a URL or a name.
-/

namespace Bundleless

open Document (text? bool? list? optional? orDefault? record?)

/-- Read the name of a format. -/
def ModuleFormat.ofDocument? (d : Document) : Option ModuleFormat :=
  d.name?.bind ofName?

namespace Descriptor

/-- The spellings of the fields, in the order of declaration. -/
def spellings : List (List String) :=
  [["name"], ["package"], ["version"], ["url"], ["provider"], ["ci_provider", "ciProvider"],
    ["production_provider", "productionProvider"], ["file"], ["path"], ["pathPrefix"],
    ["allowFallbackCdn", "allowJsDelivr"], ["global"], ["format", "type"], ["importSpecifiers"]]

/-- Read one dependency. -/
def ofDocument? (d : Document) : Option Descriptor := do
  match ← record? spellings d with
  | [name, package, version, url, provider, ciProvider, productionProvider, file, path,
      pathPrefix, allowFallback, global, format, importSpecifiers] =>
    return {
      name := ← orDefault? "" text? name
      package := ← optional? text? package
      version := ← optional? text? version
      url := ← optional? text? url
      provider := ← optional? text? provider
      ciProvider := ← optional? text? ciProvider
      productionProvider := ← optional? text? productionProvider
      file := ← optional? text? file
      path := ← optional? text? path
      pathPrefix := ← optional? text? pathPrefix
      allowFallback := ← optional? bool? allowFallback
      global := ← optional? text? global
      format := ← orDefault? .global ModuleFormat.ofDocument? format
      importSpecifiers := ← orDefault? [] (list? text?) importSpecifiers }
  | _ => none

end Descriptor

namespace Rule

/-- The spellings of the fields, in the order of declaration. -/
def spellings : List (List String) :=
  [["prefix"], ["package"], ["version"], ["filePattern"], ["globalPattern"], ["pathPrefix"],
    ["provider"], ["ci_provider", "ciProvider"], ["production_provider", "productionProvider"],
    ["allowFallbackCdn", "allowJsDelivr"], ["format", "type"]]

/-- Read one rule. -/
def ofDocument? (d : Document) : Option Rule := do
  match ← record? spellings d with
  | [start, package, version, filePattern, globalPattern, pathPrefix, provider, ciProvider,
      productionProvider, allowFallback, format] =>
    return {
      start := ← orDefault? "" text? start
      package := ← optional? text? package
      version := ← optional? text? version
      filePattern := ← optional? text? filePattern
      globalPattern := ← optional? text? globalPattern
      pathPrefix := ← optional? text? pathPrefix
      provider := ← optional? text? provider
      ciProvider := ← optional? text? ciProvider
      productionProvider := ← optional? text? productionProvider
      allowFallback := ← optional? bool? allowFallback
      format := ← orDefault? .global ModuleFormat.ofDocument? format }
  | _ => none

end Rule

namespace ProviderConfig

/-- The aliases in the order of their code points. -/
def sortAliases (aliases : List (String × String)) : List (String × String) :=
  aliases.mergeSort fun a b => Text.le a.1 b.1

/-- Read a table of aliases. -/
def aliasesOfDocument? (d : Document) : Option (List (String × String)) :=
  d.table?.map sortAliases

/-- Read the section on providers. -/
def ofDocument? (d : Document) : Option ProviderConfig := do
  match ← record? [["default"], ["aliases"]] d with
  | [default, aliases] =>
    return {
      default := ← optional? text? default
      aliases := ← orDefault? [] aliasesOfDocument? aliases }
  | _ => none

end ProviderConfig

/-- Read the section on rendering. -/
def RenderConfig.ofDocument? (d : Document) : Option RenderConfig := do
  match ← record? [["rootId"], ["domModule"], ["reactModule"], ["createRoot"], ["renderMethod"]] d
    with
  | [rootId, domModule, reactModule, createRoot, renderMethod] =>
    return {
      rootId := ← orDefault? "root" text? rootId
      domModule := ← optional? text? domModule
      reactModule := ← optional? text? reactModule
      createRoot := ← optional? text? createRoot
      renderMethod := ← orDefault? "render" text? renderMethod }
  | _ => none

namespace Config

/-- The spellings of the fields, in the order of declaration. -/
def spellings : List (List String) :=
  [["entry"], ["styles"], ["tools"], ["modules"], ["dynamicModules"], ["providers"],
    ["fallbackProviders"], ["render"], ["ciLogging"]]

/-- Read a configuration, its dependencies not yet checked. -/
def ofDocument? (d : Document) : Option Config := do
  match ← record? spellings d with
  | [entry, styles, tools, modules, dynamicModules, providers, fallbackProviders, render,
      ciLogging] =>
    return {
      entry := ← orDefault? "main.tsx" text? entry
      styles := ← orDefault? "styles.scss" text? styles
      tools := ← orDefault? [] (list? Descriptor.ofDocument?) tools
      modules := ← orDefault? [] (list? Descriptor.ofDocument?) modules
      dynamicModules := ← orDefault? [] (list? Rule.ofDocument?) dynamicModules
      providers := ← orDefault? {} ProviderConfig.ofDocument? providers
      fallbackProviders := ← orDefault? [] (list? text?) fallbackProviders
      render := ← orDefault? {} RenderConfig.ofDocument? render
      ciLogging := ← orDefault? false bool? ciLogging }
  | _ => none

/-- Every declared dependency has a URL or a name. -/
def isValid (c : Config) : Bool := (c.tools ++ c.modules).all Descriptor.isValid

/-- Read the text of a configuration document. -/
def read (text : String) : Except Failure Config :=
  match (Document.read? text).bind ofDocument? with
  | none => .error .malformedConfig
  | some c => if c.isValid then .ok c else .error .namelessDescriptor

end Config

end Bundleless
