import Bundleless.Proofs.RecordTexts

/-! # Configurations in other words

    A configuration that is written down is read as itself, in whichever of
    the accepted ways it is written.
-/

namespace Bundleless

open Way (leaf list table record)

/-! ## Dependencies -/

/-- The name of a format; `module` stands for `esm` too. -/
inductive Way.format : Way where
  | name (s : String) : format (.string s) (.string (some s))
  | module {v : Json} : v = .string "esm" → format v (.string (some "module"))

theorem ModuleFormat.reads (f : ModuleFormat) :
    Way.format.Reads ModuleFormat.ofDocument? f.toJson f where
  printed := ⟨_, rfl, .name f.name⟩
  read := by
    rintro d (_ | hModule)
    · cases f <;> rfl
    · cases f with
      | global => exact absurd hModule (by decide)
      | esm => rfl

namespace Descriptor

/-- How the value of each field may be written. -/
def wayOf : String → Way
  | "format" => .format
  | "importSpecifiers" => list leaf
  | _ => leaf

/-- How a dependency may be written. -/
def way : Way := record ({} : Descriptor).toJson wayOf

theorem reads (d : Descriptor) : way.Reads ofDocument? d.toJson d := by
  have hOption (key : String) (s : Option String) (hLeaf : wayOf key = leaf)
      (hDefault : ({} : Descriptor).toJson.get? key = some .null) :=
    Way.readsField_textOption key hLeaf s hDefault
  have hSpecifiers : (list leaf).Reads _ (.ofStrings d.importSpecifiers) d.importSpecifiers :=
    Way.reads_list fun s _ => Way.reads_text s
  -- One line for each field, in the order in which the reader takes them.
  refine Way.reads_record rfl (by decide)
    (.cons (Way.readsField_text "name" rfl d.name rfl) <|
      .cons (hOption "package" d.package rfl rfl) <|
      .cons (hOption "version" d.version rfl rfl) <|
      .cons (hOption "url" d.url rfl rfl) <|
      .cons (hOption "provider" d.provider rfl rfl) <|
      .cons (hOption "ci_provider" d.ciProvider rfl rfl) <|
      .cons (hOption "production_provider" d.productionProvider rfl rfl) <|
      .cons (hOption "file" d.file rfl rfl) <|
      .cons (hOption "path" d.path rfl rfl) <|
      .cons (hOption "pathPrefix" d.pathPrefix rfl rfl) <|
      .cons (Way.readsField_boolOption "allowFallbackCdn" rfl d.allowFallback rfl) <|
      .cons (hOption "global" d.global rfl rfl) <|
      .cons (d.format.reads.orDefault ModuleFormat.global.reads rfl) <|
      .cons (hSpecifiers.orDefault (Way.reads_list (by simp)) rfl) .nil) ?_
  intro _ hName _ hPackage _ hVersion _ hUrl _ hProvider _ hCi _ hProduction _ hFile _ hPath
    _ hPrefix _ hFallback _ hGlobal _ hFormat _ hSpecifiers
  simp [hName, hPackage, hVersion, hUrl, hProvider, hCi, hProduction, hFile, hPath, hPrefix,
    hFallback, hGlobal, hFormat, hSpecifiers]

end Descriptor

/-! ## Rules -/

namespace Rule

def wayOf : String → Way
  | "format" => .format
  | _ => leaf

/-- How a rule may be written. -/
def way : Way := record ({} : Rule).toJson wayOf

theorem reads (r : Rule) : way.Reads ofDocument? r.toJson r := by
  have hOption (key : String) (s : Option String) (hLeaf : wayOf key = leaf)
      (hDefault : ({} : Rule).toJson.get? key = some .null) :=
    Way.readsField_textOption key hLeaf s hDefault
  refine Way.reads_record rfl (by decide)
    (.cons (Way.readsField_text "prefix" rfl r.start rfl) <|
      .cons (hOption "package" r.package rfl rfl) <|
      .cons (hOption "version" r.version rfl rfl) <|
      .cons (hOption "filePattern" r.filePattern rfl rfl) <|
      .cons (hOption "globalPattern" r.globalPattern rfl rfl) <|
      .cons (hOption "pathPrefix" r.pathPrefix rfl rfl) <|
      .cons (hOption "provider" r.provider rfl rfl) <|
      .cons (hOption "ci_provider" r.ciProvider rfl rfl) <|
      .cons (hOption "production_provider" r.productionProvider rfl rfl) <|
      .cons (Way.readsField_boolOption "allowFallbackCdn" rfl r.allowFallback rfl) <|
      .cons (r.format.reads.orDefault ModuleFormat.global.reads rfl) .nil) ?_
  intro _ hStart _ hPackage _ hVersion _ hFile _ hGlobal _ hPrefix _ hProvider _ hCi _ hProduction
    _ hFallback _ hFormat
  simp [hStart, hPackage, hVersion, hFile, hGlobal, hPrefix, hProvider, hCi, hProduction,
    hFallback, hFormat]

end Rule

/-! ## Sections -/

namespace ProviderConfig

def wayOf : String → Way
  | "aliases" => table
  | _ => leaf

/-- How the section on providers may be written. -/
def way : Way := record ({} : ProviderConfig).toJson wayOf

theorem reads {p : ProviderConfig} (h : InOrder p.aliases) :
    way.Reads ofDocument? p.toJson p := by
  refine Way.reads_record rfl (by decide)
    (.cons (Way.readsField_textOption "default" rfl p.default rfl) <|
      .cons ((Way.reads_table h).orDefault (Way.reads_table .nil) rfl) .nil) ?_
  intro _ hDefault _ hAliases
  simp [hDefault, hAliases]

/-- The aliases of a section that is read are in order. -/
theorem inOrder_of_ofDocument? {d : Document} {p : ProviderConfig}
    (h : ofDocument? d = some p) : InOrder p.aliases := by
  obtain ⟨os, -, h⟩ := Option.bind_eq_some_iff.mp h
  split at h
  · next default aliases =>
    obtain ⟨_, -, h⟩ := Option.bind_eq_some_iff.mp h
    obtain ⟨es, hEs, h⟩ := Option.bind_eq_some_iff.mp h
    cases h
    cases aliases with
    | none => cases hEs; exact .nil
    | some d => exact inOrder_of_aliasesOfDocument? hEs
  · cases h

end ProviderConfig

namespace RenderConfig

/-- How the section on rendering may be written. -/
def way : Way := record ({} : RenderConfig).toJson fun _ => leaf

theorem reads (r : RenderConfig) : way.Reads ofDocument? r.toJson r := by
  refine Way.reads_record rfl (by decide)
    (.cons (Way.readsField_text "rootId" rfl r.rootId rfl) <|
      .cons (Way.readsField_textOption "domModule" rfl r.domModule rfl) <|
      .cons (Way.readsField_textOption "reactModule" rfl r.reactModule rfl) <|
      .cons (Way.readsField_textOption "createRoot" rfl r.createRoot rfl) <|
      .cons (Way.readsField_text "renderMethod" rfl r.renderMethod rfl) .nil) ?_
  intro _ hRoot _ hDom _ hReact _ hCreate _ hMethod
  simp [hRoot, hDom, hReact, hCreate, hMethod]

end RenderConfig

/-! ## The document -/

namespace Config

def wayOf : String → Way
  | "tools" | "modules" => list Descriptor.way
  | "dynamicModules" => list Rule.way
  | "providers" => ProviderConfig.way
  | "fallbackProviders" => list leaf
  | "render" => RenderConfig.way
  | _ => leaf

/-- How a configuration may be written. -/
def way : Way := record ({} : Config).toJson wayOf

theorem reads {c : Config} (h : ProviderConfig.InOrder c.providers.aliases) :
    way.Reads ofDocument? c.toJson c := by
  have hDescriptors (ds : List Descriptor) :
      (list Descriptor.way).Reads (Document.list? Descriptor.ofDocument?)
        (.array (ds.map Descriptor.toJson)) ds :=
    Way.reads_list fun d _ => d.reads
  have hRules (rs : List Rule) :
      (list Rule.way).Reads (Document.list? Rule.ofDocument?) (.array (rs.map Rule.toJson)) rs :=
    Way.reads_list fun r _ => r.reads
  have hTexts (ss : List String) :
      (list leaf).Reads (Document.list? Document.text?) (.ofStrings ss) ss :=
    Way.reads_list fun s _ => Way.reads_text s
  have hProviders : ProviderConfig.way.Reads ProviderConfig.ofDocument? _ ({} : ProviderConfig) :=
    ProviderConfig.reads (p := {}) .nil
  refine Way.reads_record rfl (by decide)
    (.cons (Way.readsField_text "entry" rfl c.entry rfl) <|
      .cons (Way.readsField_text "styles" rfl c.styles rfl) <|
      .cons ((hDescriptors c.tools).orDefault (hDescriptors []) rfl) <|
      .cons ((hDescriptors c.modules).orDefault (hDescriptors []) rfl) <|
      .cons ((hRules c.dynamicModules).orDefault (hRules []) rfl) <|
      .cons ((ProviderConfig.reads h).orDefault hProviders rfl) <|
      .cons ((hTexts c.fallbackProviders).orDefault (hTexts []) rfl) <|
      .cons (c.render.reads.orDefault (RenderConfig.reads {}) rfl) <|
      .cons (Way.readsField_bool "ciLogging" rfl c.ciLogging rfl) .nil) ?_
  intro _ hEntry _ hStyles _ hTools _ hModules _ hRules _ hProviders _ hFallback _ hRender
    _ hLogging
  simp [hEntry, hStyles, hTools, hModules, hRules, hProviders, hFallback, hRender, hLogging]

/-- The aliases of a configuration that is read are in order. -/
theorem inOrder_of_ofDocument? {d : Document} {c : Config}
    (h : ofDocument? d = some c) : ProviderConfig.InOrder c.providers.aliases := by
  obtain ⟨os, -, h⟩ := Option.bind_eq_some_iff.mp h
  split at h
  · next entry styles tools modules rules providers fallback render logging =>
    simp only [Option.bind_eq_bind, Option.bind_eq_some_iff] at h
    -- Of all that is read before and after the section on providers nothing has aliases.
    obtain ⟨_, -, _, -, _, -, _, -, _, -, p, hp, _, -, _, -, _, -, h⟩ := h
    cases h
    cases providers with
    | none => cases hp; exact .nil
    | some d => exact ProviderConfig.inOrder_of_ofDocument? hp
  · cases h

/-- The configuration is read from every text of a document that may be written for it. -/
theorem read_of_isText {c : Config} {d : Document} {text : String} (hValid : c.isValid = true)
    (hOrder : ProviderConfig.InOrder c.providers.aliases) (hWay : way c.toJson d)
    (hText : d.IsText text) : read text = .ok c := by
  simp [read, hText.read?, (reads hOrder).read d hWay, hValid]

/-- The configuration is read from both of its printed forms. -/
theorem read_printed {c : Config} (hValid : c.isValid = true)
    (hOrder : ProviderConfig.InOrder c.providers.aliases) :
    read c.toJson.compact = .ok c ∧ read c.toJson.pretty = .ok c := by
  obtain ⟨d, hPrinted, hWay⟩ := (reads hOrder).printed
  exact ⟨read_of_isText hValid hOrder hWay (Json.isText_compact hPrinted),
    read_of_isText hValid hOrder hWay (Json.isText_pretty hPrinted)⟩

/-- A configuration that is read is valid, and its aliases are in order. -/
theorem valid_of_read {text : String} {c : Config} (h : read text = .ok c) :
    c.isValid = true ∧ ProviderConfig.InOrder c.providers.aliases := by
  unfold read at h
  split at h
  · cases h
  · next c' hc =>
    obtain ⟨d, -, hRead⟩ := Option.bind_eq_some_iff.mp hc
    split at h
    · next hValid =>
      cases h
      exact ⟨hValid, inOrder_of_ofDocument? hRead⟩
    · cases h

/-- **What is read, printed and read again stays the same.** -/
theorem read_again {text : String} {c : Config} (h : read text = .ok c) :
    read c.toJson.compact = .ok c ∧ read c.toJson.pretty = .ok c :=
  read_printed (valid_of_read h).1 (valid_of_read h).2

/-- **A configuration is read as itself** from both of its printed forms, and from every text of
    every document that may be written for it. -/
theorem read_written {c : Config} (hValid : c.isValid = true)
    (hOrder : ProviderConfig.InOrder c.providers.aliases) :
    read c.toJson.compact = .ok c ∧ read c.toJson.pretty = .ok c ∧
      ∀ d text, way c.toJson d → d.IsText text → read text = .ok c := by
  obtain ⟨hCompact, hPretty⟩ := read_printed hValid hOrder
  exact ⟨hCompact, hPretty, fun d text hWay hText => read_of_isText hValid hOrder hWay hText⟩

/-- A dependency under its second names, its fields in another order, beside an unknown field. -/
theorem read_written_renamed : ∃ (c : Config) (d : Document) (text : String),
    c.tools = [{ name := "react", format := .esm }] ∧
    text = "\x7b\"tools\":[\x7b\"name\":\"react\",\"type\":\"module\"\x7d],\"note\":[null]\x7d" ∧
    c.isValid = true ∧ ProviderConfig.InOrder c.providers.aliases ∧
    way c.toJson d ∧ d.IsText text ∧ read text = .ok c := by
  let react : Descriptor := { name := "react", format := .esm }
  let c : Config := { tools := [react] }
  -- The text is printed from a value whose fields stand as they are written.
  let v : Json := .object
    [("tools", .array [.object [("name", .string "react"), ("type", .string "module")]]),
      ("note", .array [.null])]
  have hFields : react.toJson = .object
      [("allowFallbackCdn", .null), ("ci_provider", .null), ("file", .null),
        ("format", .string "esm"), ("global", .null), ("importSpecifiers", .array []),
        ("name", .string "react"), ("package", .null), ("path", .null), ("pathPrefix", .null),
        ("production_provider", .null), ("provider", .null), ("url", .null),
        ("version", .null)] := by
    decide
  have hReact : Descriptor.way react.toJson (.object
      [(some "name", .string (some "react")), (some "type", .string (some "module"))]) := by
    rw [hFields]
    exact .fields (.skip rfl <| .skip rfl <| .skip rfl <| .write (by decide) (.module rfl) <|
      .skip rfl <| .skip rfl <| .write (by decide) (.string _) <| .skip rfl <| .skip rfl <|
      .skip rfl <| .skip rfl <| .skip rfl <| .skip rfl <| .skip rfl .nil)
      (List.forall_mem_nil _) (.swap _ _ _)
  have hWay : way c.toJson (.object
      [(some "tools", .array [.object
        [(some "name", .string (some "react")), (some "type", .string (some "module"))]]),
        (some "note", .array [.null])]) :=
    .fields (.skip rfl <| .skip rfl <| .skip rfl <| .skip rfl <| .skip rfl <| .skip rfl <|
      .skip rfl <| .skip rfl <| .write (by decide) (.items (.cons hReact .nil)) .nil)
      (List.forall_mem_singleton.mpr ⟨"note", rfl, by decide⟩) (.refl _)
  have hText : v.compact =
      "\x7b\"tools\":[\x7b\"name\":\"react\",\"type\":\"module\"\x7d],\"note\":[null]\x7d" := by
    decide
  have hIsText := Json.isText_compact (v := v) rfl
  have hValid : c.isValid = true := by decide
  exact ⟨c, _, v.compact, rfl, hText, hValid, .nil, hWay, hIsText,
    (read_written hValid .nil).2.2 _ _ hWay hIsText⟩

end Config

end Bundleless
