import Bundleless.Config.Basic
import Bundleless.Json.Basic

/-! # Writing configurations

    The value a configuration is written as: every field under its first
    spelling, absent options as `null`.
-/

namespace Bundleless

/-- A truth value, or null. -/
def Json.ofOptionBool : Option Bool → Json
  | some b => .bool b
  | none => .null

/-- The name of the format. -/
def ModuleFormat.toJson (f : ModuleFormat) : Json := .string f.name

/-- The fields of a dependency. -/
def Descriptor.toJson (d : Descriptor) : Json :=
  .ofFields [
    ("name", .string d.name), ("package", .ofOption d.package), ("version", .ofOption d.version),
    ("url", .ofOption d.url), ("provider", .ofOption d.provider),
    ("ci_provider", .ofOption d.ciProvider),
    ("production_provider", .ofOption d.productionProvider), ("file", .ofOption d.file),
    ("path", .ofOption d.path), ("pathPrefix", .ofOption d.pathPrefix),
    ("allowFallbackCdn", .ofOptionBool d.allowFallback), ("global", .ofOption d.global),
    ("format", d.format.toJson), ("importSpecifiers", .ofStrings d.importSpecifiers)]

/-- The fields of a rule. -/
def Rule.toJson (r : Rule) : Json :=
  .ofFields [
    ("prefix", .string r.start), ("package", .ofOption r.package),
    ("version", .ofOption r.version), ("filePattern", .ofOption r.filePattern),
    ("globalPattern", .ofOption r.globalPattern), ("pathPrefix", .ofOption r.pathPrefix),
    ("provider", .ofOption r.provider), ("ci_provider", .ofOption r.ciProvider),
    ("production_provider", .ofOption r.productionProvider),
    ("allowFallbackCdn", .ofOptionBool r.allowFallback), ("format", r.format.toJson)]

/-- The section on providers. -/
def ProviderConfig.toJson (p : ProviderConfig) : Json :=
  .ofFields [
    ("default", .ofOption p.default),
    ("aliases", .ofFields (p.aliases.map fun (k, v) => (k, .string v)))]

/-- The section on rendering. -/
def RenderConfig.toJson (r : RenderConfig) : Json :=
  .ofFields [
    ("rootId", .string r.rootId), ("domModule", .ofOption r.domModule),
    ("reactModule", .ofOption r.reactModule), ("createRoot", .ofOption r.createRoot),
    ("renderMethod", .string r.renderMethod)]

/-- The whole configuration. -/
def Config.toJson (c : Config) : Json :=
  .ofFields [
    ("entry", .string c.entry), ("styles", .string c.styles),
    ("tools", .array (c.tools.map Descriptor.toJson)),
    ("modules", .array (c.modules.map Descriptor.toJson)),
    ("dynamicModules", .array (c.dynamicModules.map Rule.toJson)),
    ("providers", c.providers.toJson), ("fallbackProviders", .ofStrings c.fallbackProviders),
    ("render", c.render.toJson), ("ciLogging", .bool c.ciLogging)]

end Bundleless
