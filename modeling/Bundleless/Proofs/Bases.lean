import Bundleless.Provider
import Bundleless.Proofs.Replay
import Bundleless.Proofs.Trimming
import Mathlib.Data.List.Induction

/-! # The bases of providers

    Wherever a provider is named, its base is used in a normal form
    (`Base.IsForm`), and so no base is blank and none has blanks at its ends.
    That is kept by whatever sets the providers of a page up
    (`Providers.IsSound`).

    A text that names a provider may be a short name. Section 4 says, for
    each place where such a text can be written, which base it contributes.
    A hint is read once. A fallback is read when it is set, and what it
    stands for is read again when it is used. A default is brought into its
    normal form first, and that is read when it is used, so a short name is
    not recognised there.
-/

namespace Bundleless

/-! ## Section 1: Normal forms -/

namespace Base

theorem normalize_trim (raw : String) : normalize (Text.trim raw) = normalize raw := by
  unfold normalize
  rw [Text.trim_trim]

theorem toList_dropEndSlashes_append (s : String) : (Text.dropEndSlashes s ++ "/").toList =
    Chars.dropEndWhile (· == '/') s.toList ++ ['/'] := by
  simp [Text.dropEndSlashes]

/-- Only blank text is no base. -/
theorem normalize_eq_empty_iff {raw : String} : normalize raw = "" ↔ Text.isBlank raw = true := by
  rw [← Text.trim_eq_empty_iff]
  unfold normalize
  by_cases hBlank : Text.trim raw = ""
  · simp [hBlank]
  · simp only [beq_iff_eq, hBlank, if_false, iff_false]
    split <;> simp

/-- A text of the web begins with one of two words. -/
theorem isWeb_iff {s : String} : isWeb s = true ↔
    ∃ w ∈ ["http://", "https://"], w.toList <+: s.toList := by
  simp [isWeb, Text.startsWith_iff]

/-- The slashes at its end are dropped from a URL of the web, or of all that is left of it, those of
    the scheme. -/
theorem dropEndSlashes_isWeb {s : String} (hWeb : isWeb s = true) :
    isWeb (Text.dropEndSlashes s ++ "/") = true ∨
      Text.dropEndSlashes s ++ "/" = "http:/" ∨ Text.dropEndSlashes s ++ "/" = "https:/" := by
  obtain ⟨w, hWord, rest, hRest⟩ := isWeb_iff.mp hWeb
  have hText : (Text.dropEndSlashes s ++ "/").toList =
      (if Chars.dropEndWhile (· == '/') rest = [] then Chars.dropEndWhile (· == '/') w.toList
        else w.toList ++ Chars.dropEndWhile (· == '/') rest) ++ ['/'] := by
    rw [toList_dropEndSlashes_append, ← hRest, Chars.dropEndWhile_append]
  by_cases hNone : Chars.dropEndWhile (· == '/') rest = []
  · rw [if_pos hNone] at hText
    right
    simp only [List.mem_cons, List.not_mem_nil, or_false] at hWord
    apply hWord.imp <;> rintro rfl <;> exact String.toList_inj.mp (hText.trans (by decide))
  · rw [if_neg hNone] at hText
    left
    apply isWeb_iff.mpr
    refine ⟨w, hWord, ?_⟩
    rw [hText, List.append_assoc]
    exact List.prefix_append _ _

theorem startsWith_dropEndSlashes {s : String} (hSlash : Text.startsWith "/" s = true) :
    Text.startsWith "/" (Text.dropEndSlashes s ++ "/") = true := by
  obtain ⟨rest, hRest⟩ := Text.startsWith_iff.mp hSlash
  rw [Text.startsWith_iff, toList_dropEndSlashes_append, ← hRest, Chars.dropEndWhile_append]
  split
  · exact List.prefix_refl _
  · rw [List.append_assoc]
    exact List.prefix_append _ _

/-- The form of a base ends with one slash. It begins with a slash, or is a URL of the web, but for
    the two texts that are left of a scheme alone. -/
theorem normalize_shape {raw : String} (hNot : Text.isBlank raw = false) :
    (∃ stem, (normalize raw).toList = stem ++ ['/'] ∧
      Chars.dropEndWhile (· == '/') stem = stem) ∧
    ((Text.startsWith "/" (normalize raw) || isWeb (normalize raw)) = true ∨
      normalize raw = "http:/" ∨ normalize raw = "https:/") := by
  have hSome : Text.trim raw ≠ "" := by
    intro hEmpty
    rw [Text.trim_eq_empty_iff, hNot] at hEmpty
    cases hEmpty
  generalize hBase : Text.trim raw = base at hSome
  have hIs : normalize raw =
      if Text.startsWith "/" base || isWeb base then Text.dropEndSlashes base ++ "/"
      else "https://" ++ Text.dropEndSlashes base ++ "/" := by
    simp [normalize, hBase, hSome]
  by_cases hKept : (Text.startsWith "/" base || isWeb base) = true
  · rw [hIs, if_pos hKept]
    refine ⟨⟨_, toList_dropEndSlashes_append base, Chars.dropEndWhile_dropEndWhile _⟩, ?_⟩
    rcases Bool.or_eq_true_iff.mp hKept with hSlash | hWeb
    · left
      rw [startsWith_dropEndSlashes hSlash, Bool.true_or]
    · rcases dropEndSlashes_isWeb hWeb with hStill | hScheme
      · left
        rw [hStill, Bool.or_true]
      · exact Or.inr hScheme
  · rw [hIs, if_neg hKept]
    -- A bare host is not made of slashes alone, so something of it is left.
    have hHost : Chars.dropEndWhile (· == '/') base.toList ≠ [] := by
      intro hNone
      rw [Chars.dropEndWhile_eq_nil_iff] at hNone
      cases hChars : base.toList with
      | nil => exact hSome (String.toList_inj.mp hChars)
      | cons c cs =>
        have hFirst : c = '/' := by simpa using hNone c (by simp [hChars])
        apply hKept
        rw [Text.startsWith_iff.mpr ⟨cs, by simp [hChars, hFirst]⟩, Bool.true_or]
    refine ⟨⟨"https://".toList ++ Chars.dropEndWhile (· == '/') base.toList, ?_, ?_⟩, Or.inl ?_⟩
    · simp [Text.dropEndSlashes]
    · rw [Chars.dropEndWhile_append, Chars.dropEndWhile_dropEndWhile, if_neg hHost]
    · have hWeb : isWeb ("https://" ++ Text.dropEndSlashes base ++ "/") = true :=
        isWeb_iff.mpr ⟨"https://", by simp, by simp⟩
      rw [hWeb, Bool.or_true]

/-- The text is the normal form of a base. -/
def IsForm (base : String) : Prop := ∃ raw, Text.isBlank raw = false ∧ base = normalize raw

theorem isForm_normalize {raw : String} (hSome : normalize raw ≠ "") : IsForm (normalize raw) := by
  refine ⟨raw, ?_, rfl⟩
  have hNot : ¬Text.isBlank raw = true := fun hBlank => hSome (normalize_eq_empty_iff.mpr hBlank)
  simpa using hNot

/-- The public bases are in their form. -/
theorem isForm_of_mem_publicBases {base : String} (hMem : base ∈ publicBases) : IsForm base := by
  simp only [publicBases, List.mem_cons, List.not_mem_nil, or_false] at hMem
  rcases hMem with rfl | rfl
  · exact ⟨"https://cdn.jsdelivr.net/npm/", by decide, by decide⟩
  · exact ⟨"https://unpkg.com/", by decide, by decide⟩

namespace IsForm

variable {base : String}

theorem ne_empty (hForm : IsForm base) : base ≠ "" := by
  obtain ⟨raw, hNot, rfl⟩ := hForm
  intro hEmpty
  rw [normalize_eq_empty_iff, hNot] at hEmpty
  cases hEmpty

/-- A form begins with a slash or with the scheme of the web. -/
theorem begins (hForm : IsForm base) : ∃ w ∈ ["/", "http"], w.toList <+: base.toList := by
  obtain ⟨raw, hNot, rfl⟩ := hForm
  obtain ⟨-, hKept | hScheme | hScheme⟩ := normalize_shape hNot
  · rcases Bool.or_eq_true_iff.mp hKept with hSlash | hWeb
    · exact ⟨"/", by simp, Text.startsWith_iff.mp hSlash⟩
    · obtain ⟨w, hMem, hPrefix⟩ := isWeb_iff.mp hWeb
      have hHttp : "http".toList <+: w.toList := by
        simp only [List.mem_cons, List.not_mem_nil, or_false] at hMem
        rcases hMem with rfl | rfl <;> decide
      exact ⟨"http", by simp, hHttp.trans hPrefix⟩
  · exact ⟨"http", by simp, by rw [hScheme]; decide⟩
  · exact ⟨"http", by simp, by rw [hScheme]; decide⟩

/-- There are no blanks at the ends of a form. -/
theorem trim_eq (hForm : IsForm base) : Text.trim base = base := by
  have hHead : ∀ c ∈ base.toList.head?, isBlank c = false := by
    obtain ⟨w, hMem, rest, hRest⟩ := hForm.begins
    rw [← hRest]
    simp only [List.mem_cons, List.not_mem_nil, or_false] at hMem
    rcases hMem with rfl | rfl <;> simp <;> decide
  have hLast : ∀ c ∈ base.toList.getLast?, isBlank c = false := by
    obtain ⟨raw, hNot, rfl⟩ := hForm
    obtain ⟨⟨stem, hStem, -⟩, -⟩ := normalize_shape hNot
    rw [hStem, List.getLast?_concat]
    simp
    decide
  apply String.toList_inj.mp
  rw [Text.trim, Text.toList_via]
  exact Chars.trimWhile_eq_self hHead hLast

theorem isBlank_eq (hForm : IsForm base) : Text.isBlank base = false := by
  have hNot : ¬Text.isBlank base = true := by
    rw [← Text.trim_eq_empty_iff, hForm.trim_eq]
    exact hForm.ne_empty
  simpa using hNot

/-- A form is its own form, but for what is left of a scheme alone: that is taken for a host. -/
theorem normalize_eq_iff (hForm : IsForm base) :
    normalize base = base ↔ base ≠ "http:/" ∧ base ≠ "https:/" := by
  constructor
  · intro hOwn
    constructor <;> rintro rfl <;> revert hOwn <;> decide
  · intro ⟨hHttp, hHttps⟩
    have hTrim := hForm.trim_eq
    have hSome := hForm.ne_empty
    obtain ⟨raw, hNot, hRaw⟩ := hForm
    obtain ⟨⟨stem, hStem, hEnd⟩, hStart⟩ := normalize_shape hNot
    rw [← hRaw] at hStem hStart
    have hKept : (Text.startsWith "/" base || isWeb base) = true :=
      hStart.resolve_right (not_or_intro hHttp hHttps)
    have hIs : normalize base = Text.dropEndSlashes base ++ "/" := by
      simp [normalize, hTrim, hSome, hKept]
    rw [hIs]
    apply String.toList_inj.mp
    rw [toList_dropEndSlashes_append, hStem, Chars.dropEndWhile_append, hEnd,
      if_pos (by decide)]

end IsForm

end Base

/-! ## Section 2: Providers that have been set up -/

/-- What is found in a table was put in. -/
theorem Table.mem_of_get?_ofList {α : Type} {entries : List (String × α)} {key : String} {value : α}
    (hGet : (Table.ofList entries).get? key = some value) : (key, value) ∈ entries := by
  -- From any table on, which has what it has.
  suffices hFrom : ∀ t : Table α,
      (entries.foldl (fun t entry => t.insert entry.1 entry.2) t).get? key = some value →
        (key, value) ∈ entries ∨ t.get? key = some value by
    exact (hFrom [] hGet).resolve_right (by simp)
  clear hGet
  induction entries with
  | nil => exact fun t hGet => Or.inr hGet
  | cons entry entries ih =>
    intro t hGet
    rcases ih _ hGet with hRest | hHere
    · exact Or.inl (List.mem_cons_of_mem _ hRest)
    · rcases Table.get?_insert_cases hHere with ⟨rfl, rfl⟩ | hBefore
      · exact Or.inl List.mem_cons_self
      · exact Or.inr hBefore

namespace Providers

/-- Everything that the providers of a page have is a base in its form, and all short names are
    names. -/
structure IsSound (p : Providers) : Prop where
  aliases : ∀ name base, p.aliases.get? name = some base → Base.IsForm base
  named : p.aliases.get? "" = none
  default : ∀ base, p.default = some base → Base.IsForm base
  fallbacks : ∀ base ∈ p.fallbacks, Base.IsForm base

/-- A change of the providers of a page. -/
inductive Change where
  | aliases (configured : List (String × String))
  | default (base : Option String)
  | fallbacks (raw : List String)
deriving DecidableEq, Repr

/-- The providers after a change. -/
def change (p : Providers) : Change → Providers
  | .aliases configured => p.setAliases configured
  | .default base => p.setDefault base
  | .fallbacks raw => p.setFallbacks raw

/-- The providers of a page after any changes. -/
def after (page : Page) (changes : List Change) : Providers := changes.foldl change (ofPage page)

/-- A configuration makes three changes, and nothing is left of the changes before them. -/
theorem configure_eq (p : Providers) (c : Config) : p.configure c = after p.page
    [.aliases c.providers.aliases, .default c.providers.default, .fallbacks c.fallbackProviders] :=
  rfl

variable {p : Providers} {raw : String}

/-- Every short name stands for a base in its form, and is a name. -/
theorem aliases_setAliases (p : Providers) (configured : List (String × String)) :
    (∀ name base, (p.setAliases configured).aliases.get? name = some base → Base.IsForm base) ∧
      (p.setAliases configured).aliases.get? "" = none := by
  have hEntry : ∀ name base, (p.setAliases configured).aliases.get? name = some base →
      name ≠ "" ∧ Base.IsForm base := by
    intro name base hGet
    obtain ⟨⟨given, raw⟩, -, hIs⟩ := List.mem_filterMap.mp (Table.mem_of_get?_ofList hGet)
    dsimp only at hIs
    split at hIs
    · cases hIs
    · next hSome =>
      obtain ⟨rfl, rfl⟩ := Prod.mk.inj (Option.some.inj hIs)
      obtain ⟨hName, hBase⟩ := not_or.mp hSome
      exact ⟨hName, Base.isForm_normalize hBase⟩
  refine ⟨fun name base hGet => (hEntry name base hGet).2, ?_⟩
  cases hGet : (p.setAliases configured).aliases.get? "" with
  | none => rfl
  | some base => exact absurd rfl (hEntry "" base hGet).1

namespace IsSound

/-- A text stands for a base in its form, or for nothing. -/
theorem isForm_baseOf (hSound : p.IsSound) (hSome : p.baseOf raw ≠ "") :
    Base.IsForm (p.baseOf raw) := by
  change (p.aliases.get? (Text.trim raw)).getD (Base.normalize (Text.trim raw)) ≠ "" at hSome
  show Base.IsForm ((p.aliases.get? (Text.trim raw)).getD (Base.normalize (Text.trim raw)))
  cases hGet : p.aliases.get? (Text.trim raw) with
  | some base => exact hSound.aliases _ base hGet
  | none =>
    rw [hGet, Option.getD_none] at hSome
    rw [Option.getD_none]
    exact Base.isForm_normalize hSome

/-- Only blank text stands for nothing. -/
theorem baseOf_eq_empty_iff (hSound : p.IsSound) : p.baseOf raw = "" ↔ Text.isBlank raw = true := by
  show (p.aliases.get? (Text.trim raw)).getD (Base.normalize (Text.trim raw)) = "" ↔ _
  cases hGet : p.aliases.get? (Text.trim raw) with
  | some base =>
    have hNot : ¬Text.isBlank raw = true := by
      intro hBlank
      rw [Text.trim_eq_empty_iff.mpr hBlank, hSound.named] at hGet
      cases hGet
    simp [hNot, (hSound.aliases _ base hGet).ne_empty]
  | none => rw [Option.getD_none, Base.normalize_trim, Base.normalize_eq_empty_iff]

theorem change (hSound : p.IsSound) (c : Change) : (p.change c).IsSound := by
  cases c with
  | aliases configured =>
    obtain ⟨hAliases, hNamed⟩ := aliases_setAliases p configured
    exact { hSound with aliases := hAliases, named := hNamed }
  | default base =>
    refine { hSound with default := ?_ }
    intro b hIs
    change (base.map Base.normalize).filter (· != "") = some b at hIs
    obtain ⟨hIs, hSome⟩ := Option.filter_eq_some_iff.mp hIs
    obtain ⟨raw, -, rfl⟩ := Option.map_eq_some_iff.mp hIs
    exact Base.isForm_normalize (by simpa using hSome)
  | fallbacks raw =>
    refine { hSound with fallbacks := ?_ }
    intro b hMem
    change b ∈ if ((raw.map p.baseOf).filter (· != "")).isEmpty then Base.publicBases
      else (raw.map p.baseOf).filter (· != "") at hMem
    split at hMem
    · exact Base.isForm_of_mem_publicBases hMem
    · obtain ⟨hMem, hSome⟩ := List.mem_filter.mp hMem
      obtain ⟨raw, -, rfl⟩ := List.mem_map.mp hMem
      exact hSound.isForm_baseOf (by simpa using hSome)

end IsSound

theorem isSound_ofPage (page : Page) : (ofPage page).IsSound := by
  obtain ⟨hAliases, hNamed⟩ := aliases_setAliases { page } []
  refine ⟨hAliases, hNamed, ?_, ?_⟩
  · intro base hIs
    cases hIs
  · intro base hMem
    exact Base.isForm_of_mem_publicBases hMem

/-- **The providers of a page are sound**, whatever was changed. -/
theorem isSound_after (page : Page) (changes : List Change) : (after page changes).IsSound := by
  unfold after
  induction changes using List.reverseRecOn with
  | nil => exact isSound_ofPage page
  | append_singleton changes c ih =>
    rw [List.foldl_append]
    exact ih.change c

theorem isSound_configure (p : Providers) (c : Config) : (p.configure c).IsSound := by
  rw [configure_eq]
  exact isSound_after _ _

end Providers

/-! ## Section 3: The texts that bases are read from -/

namespace Hints

/-- No hint is blank. -/
structure IsClean (h : Hints) : Prop where
  provider : ∀ raw, h.provider = some raw → Text.isBlank raw = false
  ci : ∀ raw, h.ci = some raw → Text.isBlank raw = false
  production : ∀ raw, h.production = some raw → Text.isBlank raw = false

theorem isBlank_of_notBlank {hint : Option String} {raw : String}
    (hIs : notBlank hint = some raw) : Text.isBlank raw = false := by
  obtain ⟨-, hNot⟩ := Option.filter_eq_some_iff.mp hIs
  simpa using hNot

theorem isClean_ofDescriptor (d : Descriptor) : (ofDescriptor d).IsClean :=
  ⟨fun _ => isBlank_of_notBlank, fun _ => isBlank_of_notBlank, fun _ => isBlank_of_notBlank⟩

theorem isClean_ofRule (r : Rule) : (ofRule r).IsClean :=
  ⟨fun _ => isBlank_of_notBlank, fun _ => isBlank_of_notBlank, fun _ => isBlank_of_notBlank⟩

end Hints

namespace Providers

/-- The texts from which the bases of a dependency are read, in the order in which they are tried:
    the preferred provider or the default, the general one, those for continuous integration and for
    production, and the last resort. -/
def hintsFor (p : Providers) (h : Hints) : List String :=
  [p.preferred? h, h.provider, h.ci, h.production].filterMap id ++ p.lastResort h

/-- The hints of a rule, from the one the page prefers to the one it prefers least. -/
def ownHints (p : Providers) (h : Hints) : List String :=
  (if p.page.prefersCi then [h.ci, h.provider, h.production]
    else [h.production, h.provider, h.ci]).filterMap id

/-- The texts from which the bases of a rule are read: its own hints, or the default if there are
    none, and the last resort. -/
def ruleHints (p : Providers) (h : Hints) : List String :=
  (if (p.ownHints h).isEmpty then p.default.toList else p.ownHints h) ++ p.lastResort h

variable {p : Providers} {h : Hints} {raw : String}

theorem mem_lastResort : raw ∈ p.lastResort h ↔ h.allowsFallback = true ∧ raw ∈ p.fallbacks := by
  unfold lastResort
  split <;> simp_all

/-- The text names a provider of a dependency or a rule: it is one of the hints, or the default
    where there is no hint. -/
def Names (p : Providers) (h : Hints) (raw : String) : Prop :=
  h.provider = some raw ∨ h.ci = some raw ∨ h.production = some raw ∨
    h.provider = none ∧ h.ci = none ∧ h.production = none ∧ p.default = some raw

/-- Whatever the page prefers is among the hints, or the default. -/
theorem names_of_preferred? (hIs : p.preferred? h = some raw) : p.Names h raw := by
  unfold preferred? at hIs
  by_cases hGiven : h.ci.isSome ∨ h.production.isSome
  · rw [if_pos hGiven] at hIs
    split at hIs
    · rcases Option.or_eq_some_iff.mp hIs with hCi | ⟨-, hProduction⟩
      · exact Or.inr (Or.inl hCi)
      · exact Or.inr (Or.inr (Or.inl hProduction))
    · rcases Option.or_eq_some_iff.mp hIs with hProduction | ⟨-, hCi⟩
      · exact Or.inr (Or.inr (Or.inl hProduction))
      · exact Or.inr (Or.inl hCi)
  · rw [if_neg hGiven] at hIs
    obtain ⟨hCi, hProduction⟩ := not_or.mp hGiven
    rcases Option.or_eq_some_iff.mp hIs with hProvider | ⟨hNone, hDefault⟩
    · exact Or.inl hProvider
    · simp_all [Names]

theorem mem_hintsFor : raw ∈ p.hintsFor h ↔
    p.Names h raw ∨ h.allowsFallback = true ∧ raw ∈ p.fallbacks := by
  rw [hintsFor, List.mem_append, mem_lastResort]
  apply or_congr_left
  simp only [List.mem_filterMap, List.mem_cons, List.not_mem_nil, or_false, id]
  constructor
  · rintro ⟨hint, rfl | rfl | rfl | rfl, hIs⟩
    · exact names_of_preferred? hIs
    · exact Or.inl hIs
    · exact Or.inr (Or.inl hIs)
    · exact Or.inr (Or.inr (Or.inl hIs))
  · rintro (hProvider | hCi | hProduction | ⟨hProvider, hCi, hProduction, hDefault⟩)
    · exact ⟨_, by simp, hProvider⟩
    · exact ⟨_, by simp, hCi⟩
    · exact ⟨_, by simp, hProduction⟩
    · have hPreferred : p.preferred? h = some raw := by
        simp [preferred?, hProvider, hCi, hProduction, hDefault]
      exact ⟨_, by simp, hPreferred⟩

theorem mem_ownHints :
    raw ∈ p.ownHints h ↔ h.provider = some raw ∨ h.ci = some raw ∨ h.production = some raw := by
  unfold ownHints
  split <;> simp [eq_comm] <;> tauto

theorem ownHints_eq_nil_iff :
    p.ownHints h = [] ↔ h.provider = none ∧ h.ci = none ∧ h.production = none := by
  unfold ownHints
  split <;> simp <;> tauto

/-- The same texts name the providers of a rule, and of a dependency with its hints. -/
theorem mem_ruleHints : raw ∈ p.ruleHints h ↔
    p.Names h raw ∨ h.allowsFallback = true ∧ raw ∈ p.fallbacks := by
  rw [ruleHints, List.mem_append, mem_lastResort]
  apply or_congr_left
  by_cases hNone : p.ownHints h = []
  · obtain ⟨hProvider, hCi, hProduction⟩ := ownHints_eq_nil_iff.mp hNone
    simp [Names, hNone, hProvider, hCi, hProduction]
  · have hSome := mt ownHints_eq_nil_iff.mpr hNone
    rw [if_neg (by simpa using hNone), mem_ownHints]
    unfold Names
    tauto

/-- Nothing blank names a provider. -/
theorem IsSound.isBlank_of_names (hSound : p.IsSound) (hClean : h.IsClean)
    (hNames : p.Names h raw ∨ h.allowsFallback = true ∧ raw ∈ p.fallbacks) :
    Text.isBlank raw = false := by
  rcases hNames with (hProvider | hCi | hProduction | ⟨-, -, -, hDefault⟩) | ⟨-, hFallback⟩
  · exact hClean.provider raw hProvider
  · exact hClean.ci raw hCi
  · exact hClean.production raw hProduction
  · exact (hSound.default raw hDefault).isBlank_eq
  · exact (hSound.fallbacks raw hFallback).isBlank_eq

/-- Of texts that are not blank every one stands for a base. -/
theorem IsSound.bases_eq (hSound : p.IsSound) {hints : List String}
    (hNot : ∀ raw ∈ hints, Text.isBlank raw = false) :
    p.bases hints = (hints.map p.baseOf).eraseDups := by
  have hAll : (hints.map p.baseOf).filter (· != "") = hints.map p.baseOf := by
    rw [List.filter_eq_self]
    intro base hMem
    obtain ⟨raw, hRaw, rfl⟩ := List.mem_map.mp hMem
    have hSome : p.baseOf raw ≠ "" := by
      rw [Ne, hSound.baseOf_eq_empty_iff, hNot raw hRaw]
      simp
    simpa using hSome
  rw [bases, hAll, Distinct.firsts_eq_eraseDups]

/-- **The bases of a dependency** are those its hints stand for, each where it comes first. -/
theorem IsSound.basesFor_eq (hSound : p.IsSound) (hClean : h.IsClean) :
    p.basesFor h = ((p.hintsFor h).map p.baseOf).eraseDups :=
  hSound.bases_eq fun _ hMem => hSound.isBlank_of_names hClean (mem_hintsFor.mp hMem)

/-- **The bases of a rule** are those its hints stand for, each where it comes first. -/
theorem IsSound.ruleBases_eq (hSound : p.IsSound) (hClean : h.IsClean) :
    p.ruleBases h = ((p.ruleHints h).map p.baseOf).eraseDups := by
  -- There is no base of its own hints exactly where there is no such hint.
  have hOwn : (p.bases (p.ownHints h)).isEmpty = (p.ownHints h).isEmpty := by
    rw [hSound.bases_eq fun raw hMem => ?_]
    · cases p.ownHints h with
      | nil => rfl
      | cons raw own => simp [List.eraseDups_cons]
    · apply hSound.isBlank_of_names hClean (Or.inl ?_)
      rcases mem_ownHints.mp hMem with hProvider | hCi | hProduction
      · exact Or.inl hProvider
      · exact Or.inr (Or.inl hCi)
      · exact Or.inr (Or.inr (Or.inl hProduction))
  have hIs : p.ruleBases h = p.bases (p.ruleHints h) := by
    unfold ruleHints
    rw [← hOwn]
    rfl
  rw [hIs]
  exact hSound.bases_eq fun _ hMem => hSound.isBlank_of_names hClean (mem_ruleHints.mp hMem)

end Providers

/-! ## Section 4: Where a text is written -/

/-- Where a text that names a provider stands: it is a hint, the default, a fallback, or one of the
    public bases that are used where no fallback is written. -/
inductive Place where
  | hint
  | default
  | fallback
  | builtin
deriving DecidableEq, Repr

/-- A text that names a provider, and where it stands. -/
structure Written where
  place : Place
  text : String
deriving DecidableEq, Repr

/-- The hint that goes first on the page. -/
def Hints.preferred? (h : Hints) (page : Page) : Option String :=
  (if page.prefersCi then h.ci.or h.production else h.production.or h.ci).or h.provider

namespace Config

/-- What goes first: the preferred hint, or the default. -/
def writtenFirst? (c : Config) (page : Page) (h : Hints) : Option Written :=
  ((h.preferred? page).map (.mk .hint)).or
    ((Hints.notBlank c.providers.default).map (.mk .default))

/-- What goes last: the fallbacks, or the public bases if there are none. -/
def writtenLast (c : Config) : List Written :=
  let fallbacks := c.fallbackProviders.filter (!Text.isBlank ·)
  if fallbacks.isEmpty then Base.publicBases.map (.mk .builtin) else fallbacks.map (.mk .fallback)

/-- Whatever is written for a dependency and is not blank, in the order in which it is used. -/
def written (c : Config) (page : Page) (h : Hints) : List Written :=
  let own := [h.provider, h.ci, h.production].map (·.map (Written.mk .hint))
  (c.writtenFirst? page h :: own).filterMap id ++ if h.allowsFallback then c.writtenLast else []

end Config

namespace Providers

/-- What the providers keep of a text until they use it: the form of a default, and what a fallback
    stands for. -/
def kept (p : Providers) (w : Written) : String :=
  match w.place with
  | .default => Base.normalize w.text
  | .fallback => p.baseOf w.text
  | .hint | .builtin => w.text

/-- The base that a text contributes: what is kept of it is read when it is used. -/
def contributed (p : Providers) (w : Written) : String := p.baseOf (p.kept w)

/-- A base stands for itself. It is a short name of no other one, and it is not what is left of a
    scheme alone. -/
def StandsForItself (p : Providers) (base : String) : Prop :=
  p.aliases.get? base = some base ∨
    p.aliases.get? base = none ∧ base ≠ "http:/" ∧ base ≠ "https:/"

/-- Where it stands, the text contributes what it stands for. A fallback does if that stands for
    itself. A default that is no short name does if its form stands for itself, and one that is a
    short name only if its form leads to the same base. -/
def ReadsOnce (p : Providers) (w : Written) : Prop :=
  match w.place with
  | .hint | .builtin => True
  | .fallback => p.StandsForItself (p.baseOf w.text)
  | .default =>
    p.aliases.get? (Text.trim w.text) = none ∧ p.StandsForItself (Base.normalize w.text) ∨
    ∃ base, p.aliases.get? (Text.trim w.text) = some base ∧
      (p.aliases.get? (Base.normalize w.text) = some base ∨
        p.aliases.get? (Base.normalize w.text) = none ∧
          Base.normalize (Base.normalize w.text) = base)

variable {p : Providers} {c : Config} {h : Hints} {base : String}

theorem preferred?_eq : p.preferred? h = (h.preferred? p.page).or p.default := by
  unfold preferred? Hints.preferred?
  by_cases hGiven : h.ci.isSome ∨ h.production.isSome
  · rw [if_pos hGiven]
    cases hCi : h.ci <;> cases hProduction : h.production <;> cases p.page.prefersCi <;> simp_all
  · rw [if_neg hGiven]
    obtain ⟨hCi, hProduction⟩ := not_or.mp hGiven
    simp_all

/-- The default is kept in its form. -/
theorem default_configure :
    (p.configure c).default = (Hints.notBlank c.providers.default).map Base.normalize := by
  show (c.providers.default.map Base.normalize).filter (· != "") = _
  cases c.providers.default with
  | none => rfl
  | some raw =>
    by_cases hBlank : Text.isBlank raw = true
    · simp [Hints.notBlank, Option.filter_some, hBlank, Base.normalize_eq_empty_iff.mpr hBlank]
    · simp [Hints.notBlank, Option.filter_some, hBlank, mt Base.normalize_eq_empty_iff.mp hBlank]

/-- Of fallbacks the bases are kept for which they stand. -/
theorem fallbacks_configure :
    (p.configure c).fallbacks = c.writtenLast.map (p.configure c).kept := by
  have hKept : (c.fallbackProviders.map (p.configure c).baseOf).filter (· != "") =
      (c.fallbackProviders.filter (!Text.isBlank ·)).map (p.configure c).baseOf := by
    rw [List.filter_map]
    congr 1
    apply List.filter_congr
    intro raw _
    have hIff : (p.configure c).baseOf raw = "" ↔ Text.isBlank raw = true :=
      (isSound_configure p c).baseOf_eq_empty_iff
    by_cases hBlank : Text.isBlank raw = true
    · simp [hBlank, hIff.mpr hBlank]
    · simp [hBlank, mt hIff.mp hBlank]
  show (if ((c.fallbackProviders.map (p.configure c).baseOf).filter (· != "")).isEmpty
    then Base.publicBases
    else (c.fallbackProviders.map (p.configure c).baseOf).filter (· != "")) = _
  rw [hKept, List.isEmpty_map, Config.writtenLast]
  split <;> simp [Function.comp_def, kept]

theorem preferred?_configure :
    (p.configure c).preferred? h = (c.writtenFirst? p.page h).map (p.configure c).kept := by
  rw [preferred?_eq, default_configure, Config.writtenFirst?]
  show (h.preferred? p.page).or _ = _
  cases h.preferred? p.page <;> simp [Function.comp_def, kept]

/-- The bases of a dependency are read from what is kept of all that is written. -/
theorem hintsFor_configure :
    (p.configure c).hintsFor h = (c.written p.page h).map (p.configure c).kept := by
  have hOwn : [h.provider, h.ci, h.production] =
      ([h.provider, h.ci, h.production].map (·.map (Written.mk .hint))).map
        (·.map (p.configure c).kept) := by
    simp [Function.comp_def, kept]
  have hLast : (p.configure c).lastResort h =
      (if h.allowsFallback then c.writtenLast else []).map (p.configure c).kept := by
    rw [lastResort, fallbacks_configure]
    split <;> rfl
  rw [hintsFor, preferred?_configure, hLast, hOwn, ← List.map_cons, List.filterMap_map,
    Config.written, List.map_append, List.map_filterMap]
  rfl

/-- There are no blanks around a base, so it is looked up as it stands. -/
theorem baseOf_of_isForm (hForm : base ≠ "" → Base.IsForm base) :
    p.baseOf base = (p.aliases.get? base).getD (Base.normalize base) := by
  have hTrim : Text.trim base = base := by
    by_cases hEmpty : base = ""
    · rw [hEmpty]
      decide
    · exact (hForm hEmpty).trim_eq
  show (p.aliases.get? (Text.trim base)).getD (Base.normalize (Text.trim base)) = _
  rw [hTrim]

/-- A base that stands for itself is read as itself. -/
theorem IsSound.baseOf_eq_self_iff (hSound : p.IsSound) (hForm : base ≠ "" → Base.IsForm base) :
    p.baseOf base = base ↔ p.StandsForItself base := by
  rw [baseOf_of_isForm hForm, StandsForItself]
  by_cases hEmpty : base = ""
  · subst hEmpty
    simp only [hSound.named, Option.getD_none]
    decide
  · cases p.aliases.get? base with
    | none => simp [(hForm hEmpty).normalize_eq_iff]
    | some other => simp

/-- A text contributes what it stands for exactly where it is not misread. -/
theorem IsSound.contributed_eq_iff (hSound : p.IsSound) (w : Written) :
    p.contributed w = p.baseOf w.text ↔ p.ReadsOnce w := by
  obtain ⟨place, text⟩ := w
  cases place with
  | hint => exact iff_of_true rfl trivial
  | builtin => exact iff_of_true rfl trivial
  | fallback => exact hSound.baseOf_eq_self_iff hSound.isForm_baseOf
  | default =>
    have hForm : Base.normalize text ≠ "" → Base.IsForm (Base.normalize text) :=
      Base.isForm_normalize
    have hText : p.baseOf text =
        (p.aliases.get? (Text.trim text)).getD (Base.normalize text) := by
      rw [← Base.normalize_trim]
      rfl
    show p.baseOf (Base.normalize text) = p.baseOf text ↔ _ ∧ _ ∨ ∃ base, _
    rw [hText]
    cases p.aliases.get? (Text.trim text) with
    | none => simp [hSound.baseOf_eq_self_iff hForm]
    | some base =>
      rw [baseOf_of_isForm hForm]
      cases p.aliases.get? (Base.normalize text) <;> simp

/-- **Every text contributes one base, wherever it stands**, and the bases of a dependency are
    these, each where it comes first. It is the base that the text stands for exactly where what is
    kept of it does not lead to another one. -/
theorem contributes_iff (p : Providers) (c : Config) (d : Descriptor) :
    (p.configure c).basesFor (.ofDescriptor d) =
      ((c.written p.page (.ofDescriptor d)).map (p.configure c).contributed).eraseDups ∧
    ∀ w, (p.configure c).contributed w = (p.configure c).baseOf w.text ↔
      (p.configure c).ReadsOnce w := by
  have hSound := isSound_configure p c
  refine ⟨?_, fun w => hSound.contributed_eq_iff w⟩
  rw [hSound.basesFor_eq (Hints.isClean_ofDescriptor d), hintsFor_configure, List.map_map]
  rfl

/-- Wherever it stands, every text contributes the base that it stands for. -/
def ExpandsAlike (p : Providers) (c : Config) : Prop :=
  ∀ d, (p.configure c).basesFor (.ofDescriptor d) =
    ((c.written p.page (.ofDescriptor d)).map fun w => (p.configure c).baseOf w.text).eraseDups

/-- A default that is a short name is taken for a host. A fallback is read twice: where the base
    that its short name stands for is a short name itself, it contributes the base of that. -/
theorem not_expandsAlike :
    ¬(ofPage (Replay.pageAt [""])).ExpandsAlike { providers := { default := some "unpkg" } } ∧
    ¬(ofPage (Replay.pageAt [""])).ExpandsAlike
      { providers := {
          aliases := [("near", "https://a.test"), ("https://a.test/", "https://b.test")] }
        fallbackProviders := ["near"] } := by
  constructor
  · intro hAlike
    have hBases := hAlike { name := "react", allowFallback := some false }
    revert hBases
    decide
  · intro hAlike
    have hBases := hAlike { name := "react" }
    revert hBases
    decide

end Providers

end Bundleless
