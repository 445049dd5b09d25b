import Bundleless.Candidate
import Bundleless.Proofs.Bases
import Mathlib.Data.List.DropRight

/-! # The candidates of a dependency

    Repetitions are dropped from the bases, from the candidates under them
    and from the URLs that these are made into. All that comes to one list:
    every form of the path under the base of every hint, as a URL, each where
    it comes first. Whether the page prefers providers for continuous
    integration or for production changes nothing but the order of that list.

    The list is written down anew here, from the dependency and from the
    providers: which hints count and in which order, which forms a path has,
    and how a URL is put together.
-/

namespace Bundleless

/-! ## Section 1: The forms of a path -/

namespace Candidate

/-- The text without the slashes around it. -/
def bare (s : String) : String :=
  String.ofList ((s.toList.dropWhile (· == '/')).rdropWhile (· == '/'))

/-- The prefix and the file without the slashes around them, and one slash between them. One that
    is not given, or is nothing but slashes, is left out with that slash. -/
def filePath (pathPrefix file : Option String) : String :=
  match bare (pathPrefix.getD ""), bare (file.getD "") with
  | "", rest => rest
  | first, "" => first
  | first, rest => first ++ "/" ++ rest

/-- What may follow the package in a URL: the explicit path alone, without the slashes before it;
    else the prefix and file as they are, under `umd` and under `dist`; else nothing. -/
def forms (explicit pathPrefix file : Option String) : List String :=
  let path := String.ofList ((explicit.getD "").toList.dropWhile (· == '/'))
  let file := filePath pathPrefix file
  if path ≠ "" then ["/" ++ path]
  else if file ≠ "" then ["/" ++ file, "/umd/" ++ file, "/dist/" ++ file]
  else [""]

/-- The package, with its version after an at sign if there is one. -/
def versioned (package : String) (version : Option String) : String :=
  if version.getD "" = "" then package else package ++ "@" ++ version.getD ""

/-- The URL that a text stands for on a page: itself if it is one of the web, else what it refers to
    from the page, or itself if that is nothing. -/
def onPage (page : Page) (text : String) : String :=
  if Text.BeginsAsUrl text then text else (page.join text).toOption.elim text Url.href

theorem trimSlashes_eq_bare (s : String) : Text.trimSlashes s = bare s := rfl

theorem bare_empty : bare "" = "" := by decide

/-- Two parts of which one or both may be left out. -/
theorem combine_eq_filePath (pathPrefix file : Option String) :
    combine pathPrefix file = filePath pathPrefix file := by
  -- A part that is not given counts as one that is empty.
  have hGiven : combine pathPrefix file = Text.join "/"
      ([bare (pathPrefix.getD ""), bare (file.getD "")].filter (· != "")) := by
    cases pathPrefix <;> cases file <;>
      simp [combine, trimSlashes_eq_bare, bare_empty, List.filter_cons]
  rw [hGiven, filePath]
  generalize bare (pathPrefix.getD "") = first
  generalize bare (file.getD "") = rest
  by_cases hFirst : first = ""
  · by_cases hRest : rest = "" <;> simp [hFirst, hRest, Text.join]
  · by_cases hRest : rest = "" <;> simp [hFirst, hRest, Text.join]

theorem paths_eq_forms (explicit pathPrefix file : Option String) :
    paths explicit (combine pathPrefix file) = forms explicit pathPrefix file := by
  have hLayouts : ∀ path : String, layouts.map (fun layout => "/" ++ layout ++ path) =
      ["/" ++ path, "/umd/" ++ path, "/dist/" ++ path] := fun _ => rfl
  rw [combine_eq_filePath, paths, forms]
  cases explicit with
  | none => simp [hLayouts]
  | some path =>
    have hPath : Text.dropStartSlashes path =
        String.ofList (path.toList.dropWhile (· == '/')) := rfl
    rw [Option.map_some, hPath, Option.getD_some]
    generalize String.ofList (path.toList.dropWhile (· == '/')) = path
    by_cases hEmpty : path = "" <;> simp [Option.filter_some, hEmpty, hLayouts]

theorem package_eq_versioned (package : String) (version : Option String) :
    Candidate.package package version = versioned package version := by
  unfold Candidate.package versioned
  cases version with
  | none => rfl
  | some v => by_cases hEmpty : v = "" <;> simp [Option.filter_some, hEmpty]

theorem absolute_eq_onPage (page : Page) (text : String) :
    absolute page text = onPage page text := by
  unfold absolute onPage Base.isWeb
  simp only [Text.startsWith_or_iff]
  cases page.join text <;> rfl

end Candidate

/-! ## Section 2: One list -/

namespace Providers

open Candidate (forms versioned onPage)

/-- Of these texts, those that are given and not blank. -/
def said (texts : List (Option String)) : List String :=
  texts.filterMap fun text => text.filter (!Text.isBlank ·)

/-- The base for a text, without the blanks around it: that of the short name which it is; else the
    text with one slash at its end, after the scheme if it is neither a URL nor a path. -/
def baseFor (p : Providers) (text : String) : String :=
  let name := String.ofList ((text.toList.dropWhile isBlank).rdropWhile isBlank)
  let stem := String.ofList (name.toList.rdropWhile (· == '/'))
  (p.aliases.get? name).getD <|
    if name = "" then ""
    else if Text.BeginsAsUrl name ∨ ['/'] <+: name.toList then stem ++ "/"
    else "https://" ++ stem ++ "/"

/-- The texts that name the providers of a dependency: the one that the page prefers, or the default
    if there is none; then the general one and those for continuous integration and for production;
    and the fallbacks, unless they are ruled out. -/
def hinted (p : Providers) (d : Descriptor) : List String :=
  let preferred := said <|
    if p.page.prefersCi then [d.ciProvider, d.productionProvider, d.provider]
    else [d.productionProvider, d.ciProvider, d.provider]
  (preferred.head?.or p.default).toList ++ said [d.provider, d.ciProvider, d.productionProvider] ++
    if d.allowFallback = some false then [] else p.fallbacks

/-- The texts that name the providers of a rule: its own, from the one that the page prefers to the
    one it prefers least, or the default if there is none; and the fallbacks, unless they are ruled
    out. -/
def ruleHinted (p : Providers) (r : Rule) : List String :=
  let own := said <|
    if p.page.prefersCi then [r.ciProvider, r.provider, r.productionProvider]
    else [r.productionProvider, r.provider, r.ciProvider]
  (if own = [] then p.default.toList else own) ++
    if r.allowFallback = some false then [] else p.fallbacks

/-- Every form of a path under the base for every text, as a URL, as often as it comes up. -/
def spread (p : Providers) (texts : List String) (package : String) (forms : List String) :
    List String :=
  texts.flatMap fun text => forms.map fun form =>
    onPage p.page (p.baseFor text ++ package ++ form)

/-- All candidates of a dependency, in the order in which they come up. -/
def flat (p : Providers) (d : Descriptor) : List String :=
  p.spread (p.hinted d) (versioned (d.package.getD d.name) d.version)
    (forms d.path d.pathPrefix d.file)

/-- All candidates of an icon under a rule, in the order in which they come up. -/
def ruleFlat (p : Providers) (r : Rule) (icon : String) : List String :=
  p.spread (p.ruleHinted r) (versioned r.packageName r.version)
    (forms none r.pathPrefix (some (r.fileFor icon)))

variable {p : Providers} {h : Hints}

theorem baseOf_eq_baseFor (p : Providers) (text : String) : p.baseOf text = p.baseFor text := by
  have hNormal : Base.normalize (Text.trim text) =
      if Text.trim text = "" then ""
      else if Text.BeginsAsUrl (Text.trim text) ∨ ['/'] <+: (Text.trim text).toList then
        Text.dropEndSlashes (Text.trim text) ++ "/"
      else "https://" ++ Text.dropEndSlashes (Text.trim text) ++ "/" := by
    have hPath : Text.startsWith "/" (Text.trim text) = true ↔
        ['/'] <+: (Text.trim text).toList := Text.startsWith_iff
    have hWeb : Base.isWeb (Text.trim text) = true ↔ Text.BeginsAsUrl (Text.trim text) :=
      Text.startsWith_or_iff
    simp only [Base.normalize, Text.trim_trim, beq_iff_eq, Bool.or_eq_true, hWeb, hPath, or_comm]
  show (p.aliases.get? (Text.trim text)).getD (Base.normalize (Text.trim text)) = _
  rw [hNormal]
  rfl

theorem lastResort_ofDescriptor (p : Providers) (d : Descriptor) :
    p.lastResort (.ofDescriptor d) = if d.allowFallback = some false then [] else p.fallbacks := by
  show (if d.allowsFallback = true then p.fallbacks else []) = _
  by_cases hRuledOut : d.allowFallback = some false <;> simp [Descriptor.allowsFallback, hRuledOut]

theorem lastResort_ofRule (p : Providers) (r : Rule) :
    p.lastResort (.ofRule r) = if r.allowFallback = some false then [] else p.fallbacks := by
  show (if r.allowsFallback = true then p.fallbacks else []) = _
  by_cases hRuledOut : r.allowFallback = some false <;> simp [Rule.allowsFallback, hRuledOut]

theorem said_eq (texts : List (Option String)) :
    said texts = (texts.map Hints.notBlank).filterMap id := by
  rw [List.filterMap_map]
  rfl

/-- The first of three texts that is given and not blank. -/
theorem head?_said (a b c : Option String) :
    (said [a, b, c]).head? = ((Hints.notBlank a).or (Hints.notBlank b)).or (Hints.notBlank c) := by
  show (List.filterMap Hints.notBlank [a, b, c]).head? = _
  rw [List.head?_filterMap]
  cases hA : Hints.notBlank a <;> cases hB : Hints.notBlank b <;> cases hC : Hints.notBlank c <;>
    simp [hA, hB, hC]

theorem hintsFor_eq_hinted (p : Providers) (d : Descriptor) :
    p.hintsFor (.ofDescriptor d) = p.hinted d := by
  have hPreferred : p.preferred? (.ofDescriptor d) = (said (
      if p.page.prefersCi then [d.ciProvider, d.productionProvider, d.provider]
      else [d.productionProvider, d.ciProvider, d.provider])).head?.or p.default := by
    rw [preferred?_eq, Hints.preferred?, Hints.ofDescriptor]
    cases p.page.prefersCi with
    | true => rw [if_pos rfl, if_pos rfl, head?_said]
    | false => rw [if_neg Bool.false_ne_true, if_neg Bool.false_ne_true, head?_said]
  rw [hintsFor, hPreferred, lastResort_ofDescriptor, hinted, said_eq [d.provider, _, _]]
  generalize ((said _).head?).or p.default = first
  cases first <;> rfl

theorem ruleHints_eq_ruleHinted (p : Providers) (r : Rule) :
    p.ruleHints (.ofRule r) = p.ruleHinted r := by
  have hOwn : p.ownHints (.ofRule r) = said (
      if p.page.prefersCi then [r.ciProvider, r.provider, r.productionProvider]
      else [r.productionProvider, r.provider, r.ciProvider]) := by
    rw [said_eq, ownHints]
    cases p.page.prefersCi <;> rfl
  rw [ruleHints, hOwn, lastResort_ofRule, ruleHinted]
  simp only [List.isEmpty_iff]

/-- Of what is dropped on the way, nothing would have been kept in the end. -/
theorem candidatesUnder_eraseDups (texts : List String) (package : String) (forms : List String) :
    p.candidatesUnder (texts.map p.baseOf).eraseDups package forms =
      (p.spread texts package forms).eraseDups := by
  have hSpread : p.spread texts package forms =
      ((texts.map p.baseOf).flatMap fun base => forms.map fun form => base ++ package ++ form).map
        (Candidate.absolute p.page) := by
    simp [spread, List.map_flatMap, List.flatMap_map, Function.comp_def,
      Candidate.absolute_eq_onPage, baseOf_eq_baseFor]
  rw [hSpread, candidatesUnder, Candidate.under, Distinct.firsts_map,
    ← Distinct.firsts_eq_eraseDups, ← Distinct.firsts_eq_eraseDups]
  rw [List.map_flatMap, List.map_flatMap]
  exact Distinct.firsts_flatMap _ _

/-- The package is named at one place twice, and so are its directory and its file. -/
def twice : Descriptor where
  name := "react"
  version := some "18"
  provider := some "/npm"
  ciProvider := some " https://e.test/npm/"
  pathPrefix := some "/lib/"
  file := some "/react.js"
  allowFallback := some false

/-- **It does not matter when repetitions are dropped.** However the providers of a page were
    changed, the candidates of a dependency are those of one flat list, each where it comes first,
    and so are the candidates of an icon. -/
theorem candidates_eq_flat (page : Page) (changes : List Change) :
    (∀ d, ((after page changes).candidates d).Nodup ∧
      (after page changes).candidates d = ((after page changes).flat d).eraseDups) ∧
    ∀ r icon, ((after page changes).ruleCandidates r icon).Nodup ∧
      (after page changes).ruleCandidates r icon =
        ((after page changes).ruleFlat r icon).eraseDups := by
  have hSound := isSound_after page changes
  constructor
  · intro d
    refine ⟨Distinct.nodup_firsts _, ?_⟩
    rw [candidates, hSound.basesFor_eq (Hints.isClean_ofDescriptor d), candidatesUnder_eraseDups,
      hintsFor_eq_hinted, Candidate.package_eq_versioned, Candidate.paths_eq_forms]
    rfl
  · intro r icon
    refine ⟨Distinct.nodup_firsts _, ?_⟩
    rw [ruleCandidates, hSound.ruleBases_eq (Hints.isClean_ofRule r), candidatesUnder_eraseDups,
      ruleHints_eq_ruleHinted, Candidate.package_eq_versioned, Candidate.paths_eq_forms]
    rfl

/-- Bases that differ as they are written can have the same candidates on a page. With a directory
    and a file there are three under each base; a path that is given is the only one; and what is
    nothing but slashes counts for nothing. -/
theorem candidates_eq_flat_relative :
    let p := after (Replay.pageAt [""]) []
    p.basesFor (.ofDescriptor twice) = ["https://e.test/npm/", "/npm/"] ∧
    p.flat twice = [
      "https://e.test/npm/react@18/lib/react.js", "https://e.test/npm/react@18/umd/lib/react.js",
      "https://e.test/npm/react@18/dist/lib/react.js",
      "https://e.test/npm/react@18/lib/react.js", "https://e.test/npm/react@18/umd/lib/react.js",
      "https://e.test/npm/react@18/dist/lib/react.js",
      "https://e.test/npm/react@18/lib/react.js", "https://e.test/npm/react@18/umd/lib/react.js",
      "https://e.test/npm/react@18/dist/lib/react.js"] ∧
    p.candidates twice = [
      "https://e.test/npm/react@18/lib/react.js", "https://e.test/npm/react@18/umd/lib/react.js",
      "https://e.test/npm/react@18/dist/lib/react.js"] ∧
    p.candidates { twice with path := some "//umd/react.js" } =
      ["https://e.test/npm/react@18/umd/react.js"] ∧
    p.candidates { twice with version := some "", pathPrefix := some "//", file := none } =
      ["https://e.test/npm/react"] ∧
    p.ruleCandidates
        { start := "icons/*", provider := some "/npm", allowFallback := some false } "Home" = [
      "https://e.test/npm/icons/Home.js", "https://e.test/npm/icons/umd/Home.js",
      "https://e.test/npm/icons/dist/Home.js"] := by
  obtain ⟨hOf, hOfRule⟩ := candidates_eq_flat (Replay.pageAt [""]) []
  refine ⟨by decide, by decide, ?_, ?_, ?_, ?_⟩
  · rw [(hOf twice).2]
    decide
  · rw [(hOf _).2]
    decide
  · rw [(hOf _).2]
    decide
  · rw [(hOfRule _ "Home").2]
    decide

/-! ## Section 3: One page in two modes -/

/-- The same providers, on the page in another mode. -/
def inMode (p : Providers) (mode : ProxyMode) : Providers :=
  { p with page := { p.page with mode := mode } }

/-- What is changed does not depend on the mode. -/
theorem after_inMode (page : Page) (changes : List Change) (mode : ProxyMode) :
    after { page with mode := mode } changes = (after page changes).inMode mode := by
  unfold after
  induction changes using List.reverseRecOn with
  | nil => rfl
  | append_singleton changes c ih =>
    simp only [List.foldl_append, List.foldl_cons, List.foldl_nil, ih]
    cases c <;> rfl

variable {m m' : ProxyMode}

theorem IsSound.inMode (hSound : p.IsSound) (m : ProxyMode) : (p.inMode m).IsSound where
  aliases := hSound.aliases
  named := hSound.named
  default := hSound.default
  fallbacks := hSound.fallbacks

/-- The mode has a say only where there is a hint for an environment. -/
theorem hintsFor_inMode (m m' : ProxyMode) (hCi : h.ci = none)
    (hProduction : h.production = none) :
    (p.inMode m).hintsFor h = (p.inMode m').hintsFor h := by
  simp only [hintsFor, preferred?, hCi, hProduction]
  rfl

theorem ruleHints_inMode (m m' : ProxyMode) (hCi : h.ci = none)
    (hProduction : h.production = none) :
    (p.inMode m).ruleHints h = (p.inMode m').ruleHints h := by
  have hOwn : ∀ m, (p.inMode m).ownHints h = h.provider.toList := by
    intro m
    rw [ownHints, hCi, hProduction]
    cases h.provider <;> simp
  rw [ruleHints, ruleHints, hOwn, hOwn]
  rfl

theorem mem_candidatesUnder {bases paths : List String} {package url : String} :
    url ∈ p.candidatesUnder bases package paths ↔
      ∃ base ∈ bases, ∃ path ∈ paths,
        Candidate.absolute p.page (base ++ package ++ path) = url := by
  simp [candidatesUnder, Candidate.under, Distinct.mem_firsts]

/-- The same bases have the same candidates. -/
theorem candidatesUnder_perm {bases bases' : List String} (hPerm : bases.Perm bases')
    (package : String) (paths : List String) :
    ((p.inMode m).candidatesUnder bases package paths).Perm
      ((p.inMode m').candidatesUnder bases' package paths) := by
  apply Distinct.firsts_perm
  intro url
  show url ∈ (p.inMode m).candidatesUnder _ _ _ ↔ url ∈ (p.inMode m').candidatesUnder _ _ _
  simp only [mem_candidatesUnder, hPerm.mem_iff]
  rfl

/-- Some text that names a provider, or a fallback that may be used, stands for the base. -/
def Tries (p : Providers) (h : Hints) (base : String) : Prop :=
  ∃ raw, (p.Names h raw ∨ h.allowsFallback = true ∧ raw ∈ p.fallbacks) ∧ p.baseOf raw = base

/-- For a dependency the two differ in the order of what they try, and not even in that where no
    hint is for an environment. -/
structure Reorders (p q : Providers) (d : Descriptor) : Prop where
  tries : ∀ base, base ∈ p.basesFor (.ofDescriptor d) ↔ p.Tries (.ofDescriptor d) base
  nodup : (p.basesFor (.ofDescriptor d)).Nodup ∧ (q.basesFor (.ofDescriptor d)).Nodup
  bases : (p.basesFor (.ofDescriptor d)).Perm (q.basesFor (.ofDescriptor d))
  candidates : (p.candidates d).Perm (q.candidates d)
  alike : Hints.notBlank d.ciProvider = none → Hints.notBlank d.productionProvider = none →
    p.basesFor (.ofDescriptor d) = q.basesFor (.ofDescriptor d) ∧ p.candidates d = q.candidates d

/-- So do they for a rule. Beside that, the bases of the rule are those that a dependency with its
    hints would have. -/
structure ReordersRule (p q : Providers) (r : Rule) : Prop where
  tries : ∀ base, base ∈ p.ruleBases (.ofRule r) ↔ p.Tries (.ofRule r) base
  nodup : (p.basesFor (.ofRule r)).Nodup ∧ (q.basesFor (.ofRule r)).Nodup
  nodupRule : (p.ruleBases (.ofRule r)).Nodup ∧ (q.ruleBases (.ofRule r)).Nodup
  bases : (p.basesFor (.ofRule r)).Perm (q.basesFor (.ofRule r))
  ruleBases : (p.ruleBases (.ofRule r)).Perm (q.ruleBases (.ofRule r))
  same : (p.basesFor (.ofRule r)).Perm (p.ruleBases (.ofRule r)) ∧
    (q.basesFor (.ofRule r)).Perm (q.ruleBases (.ofRule r))
  candidates : ∀ icon, (p.ruleCandidates r icon).Perm (q.ruleCandidates r icon)
  alike : Hints.notBlank r.ciProvider = none → Hints.notBlank r.productionProvider = none →
    p.basesFor (.ofRule r) = q.basesFor (.ofRule r) ∧
      p.ruleBases (.ofRule r) = q.ruleBases (.ofRule r) ∧
      ∀ icon, p.ruleCandidates r icon = q.ruleCandidates r icon

/-- All that is named is tried, and nothing else. -/
theorem IsSound.mem_basesFor (hSound : p.IsSound) (hClean : h.IsClean) {base : String} :
    base ∈ p.basesFor h ↔ p.Tries h base := by
  rw [hSound.basesFor_eq hClean, ← Distinct.firsts_eq_eraseDups, Distinct.mem_firsts]
  simp only [List.mem_map, mem_hintsFor, Tries]

theorem IsSound.mem_ruleBases (hSound : p.IsSound) (hClean : h.IsClean) {base : String} :
    base ∈ p.ruleBases h ↔ p.Tries h base := by
  rw [hSound.ruleBases_eq hClean, ← Distinct.firsts_eq_eraseDups, Distinct.mem_firsts]
  simp only [List.mem_map, mem_ruleHints, Tries]

/-- What is named does not depend on the mode. -/
theorem IsSound.basesFor_perm (hSound : p.IsSound) (m m' : ProxyMode) (hClean : h.IsClean) :
    ((p.inMode m).basesFor h).Perm ((p.inMode m').basesFor h) := by
  apply Distinct.firsts_perm
  intro base
  show base ∈ (p.inMode m).basesFor h ↔ base ∈ (p.inMode m').basesFor h
  rw [(hSound.inMode m).mem_basesFor hClean, (hSound.inMode m').mem_basesFor hClean]
  rfl

/-- Nor does it depend on whether a dependency names it or a rule. -/
theorem IsSound.basesFor_perm_ruleBases (hSound : p.IsSound) (hClean : h.IsClean) :
    (p.basesFor h).Perm (p.ruleBases h) := by
  apply Distinct.firsts_perm
  intro base
  show base ∈ p.basesFor h ↔ base ∈ p.ruleBases h
  rw [hSound.mem_basesFor hClean, hSound.mem_ruleBases hClean]

theorem IsSound.reorders (hSound : p.IsSound) (m m' : ProxyMode) (d : Descriptor) :
    (p.inMode m).Reorders (p.inMode m') d where
  tries _ := (hSound.inMode m).mem_basesFor (Hints.isClean_ofDescriptor d)
  nodup := ⟨Distinct.nodup_firsts _, Distinct.nodup_firsts _⟩
  bases := hSound.basesFor_perm m m' (Hints.isClean_ofDescriptor d)
  candidates :=
    candidatesUnder_perm (hSound.basesFor_perm m m' (Hints.isClean_ofDescriptor d)) _ _
  alike := by
    intro hCi hProduction
    have hBases : (p.inMode m).basesFor (.ofDescriptor d) =
        (p.inMode m').basesFor (.ofDescriptor d) :=
      congrArg p.bases (hintsFor_inMode (h := .ofDescriptor d) m m' hCi hProduction)
    refine ⟨hBases, ?_⟩
    rw [Providers.candidates, hBases]
    rfl

theorem IsSound.reordersRule (hSound : p.IsSound) (m m' : ProxyMode) (r : Rule) :
    (p.inMode m).ReordersRule (p.inMode m') r := by
  have hClean := Hints.isClean_ofRule r
  have hSame : ∀ m, ((p.inMode m).basesFor (.ofRule r)).Perm ((p.inMode m).ruleBases (.ofRule r)) :=
    fun m => (hSound.inMode m).basesFor_perm_ruleBases hClean
  have hBases : ((p.inMode m).basesFor (.ofRule r)).Perm ((p.inMode m').basesFor (.ofRule r)) :=
    hSound.basesFor_perm m m' hClean
  have hRule : ((p.inMode m).ruleBases (.ofRule r)).Perm ((p.inMode m').ruleBases (.ofRule r)) :=
    ((hSame m).symm.trans hBases).trans (hSame m')
  exact {
    tries := fun _ => (hSound.inMode m).mem_ruleBases hClean
    nodup := ⟨Distinct.nodup_firsts _, Distinct.nodup_firsts _⟩
    nodupRule := ⟨Distinct.nodup_firsts _, Distinct.nodup_firsts _⟩
    bases := hBases
    ruleBases := hRule
    same := ⟨hSame m, hSame m'⟩
    candidates := fun _ => candidatesUnder_perm hRule _ _
    alike := by
      intro hCi hProduction
      have hSameBases : (p.inMode m).basesFor (.ofRule r) = (p.inMode m').basesFor (.ofRule r) :=
        congrArg p.bases (hintsFor_inMode (h := .ofRule r) m m' hCi hProduction)
      have hSameRule : (p.inMode m).ruleBases (.ofRule r) =
          (p.inMode m').ruleBases (.ofRule r) := by
        rw [(hSound.inMode m).ruleBases_eq hClean, (hSound.inMode m').ruleBases_eq hClean,
          ruleHints_inMode m m' hCi hProduction]
        rfl
      refine ⟨hSameBases, hSameRule, fun icon => ?_⟩
      rw [ruleCandidates, hSameRule]
      rfl }

/-- A package that may be had through a proxy. -/
def proxied : Descriptor where
  name := "react"
  ciProvider := some "/proxy/npm"
  productionProvider := some "unpkg"

/-- **The mode of a page changes the order of what is tried, and never what is tried.** -/
theorem mode_only_reorders (page : Page) (changes : List Change) (m m' : ProxyMode) :
    (∀ d, (after { page with mode := m } changes).Reorders
      (after { page with mode := m' } changes) d) ∧
    ∀ r, (after { page with mode := m } changes).ReordersRule
      (after { page with mode := m' } changes) r := by
  have hSound := isSound_after page changes
  rw [after_inMode page changes m, after_inMode page changes m']
  exact ⟨hSound.reorders m m', hSound.reordersRule m m'⟩

/-- The same page goes to the proxy first or last. Where only a general provider is named, it goes
    there first in any mode. -/
theorem mode_only_reorders_proxy :
    let p := after { Replay.pageAt [""] with mode := .proxy } []
    let q := after { Replay.pageAt [""] with mode := .direct } []
    p.basesFor (.ofDescriptor proxied) =
      ["/proxy/npm/", "https://unpkg.com/", "https://cdn.jsdelivr.net/npm/"] ∧
    q.basesFor (.ofDescriptor proxied) =
      ["https://unpkg.com/", "/proxy/npm/", "https://cdn.jsdelivr.net/npm/"] ∧
    p.Reorders q proxied ∧
    p.candidates { name := "react", provider := some "unpkg" } =
      q.candidates { name := "react", provider := some "unpkg" } := by
  obtain ⟨hReorders, -⟩ := mode_only_reorders (Replay.pageAt [""]) [] .proxy .direct
  refine ⟨by decide, by decide, hReorders proxied, ?_⟩
  exact ((hReorders { name := "react", provider := some "unpkg" }).alike (by decide) (by decide)).2

end Providers

end Bundleless
