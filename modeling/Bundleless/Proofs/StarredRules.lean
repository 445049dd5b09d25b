import Bundleless.Load.Local
import Bundleless.Proofs.Trimming

/-! # Rules written with a star

    A rule for all names below `icons` begins with `icons/`, or it is written
    `icons/*`. The name of the package is the same for both, and so is all
    that is made of one icon. But the star is read only where the package is
    named. Everywhere else it is a character like any other: a name falls
    under the rule with the star only if it has the star in it, too.

    So the two ways to write a rule agree on a name exactly where neither of
    them covers it (`agreeOn_starred_iff`).
-/

namespace Bundleless.Rule

/-! ## Section 1: Agreement on a name -/

/-- The rule with another common beginning. -/
def startingWith (r : Rule) (start : String) : Rule := { r with start := start }

/-- Two rules serve a name alike, wherever one stands in the place of the other: they cover it or not,
    they make the same icon of it and look for the icon in the same places, and whoever goes by a list
    of rules with one of them in it does the same. -/
structure AgreeOn (r r' : Rule) (name : String) : Prop where
  covers : r.covers name = r'.covers name
  icon : r.icon name = r'.icon name
  package : r.packageName = r'.packageName
  file : r.fileFor (r.icon name) = r'.fileFor (r'.icon name)
  global : r.globalFor (r.icon name) = r'.globalFor (r'.icon name)
  candidates : ∀ p : Providers,
    p.ruleCandidates r (r.icon name) = p.ruleCandidates r' (r'.icon name)
  /-- The rule that is found stands at the same place. -/
  found : ∀ before after : List Rule,
    (before ++ r :: after).findIdx? (·.covers name) =
      (before ++ r' :: after).findIdx? (·.covers name)
  collected : ∀ before after source,
    name ∈ Source.dynamicSpecifiers source (before ++ r :: after) ↔
      name ∈ Source.dynamicSpecifiers source (before ++ r' :: after)
  loaded : ∀ l before after,
    Load.loadUnder l name (before ++ r :: after) = Load.loadUnder l name (before ++ r' :: after)
  /-- A local name is not looked up among the rules. -/
  required : ∀ (l : Loader) before after dir, LocalPath.isLocal name = false →
    Load.requireLoaded { l with rules := before ++ r :: after } name dir =
      Load.requireLoaded { l with rules := before ++ r' :: after } name dir

variable {r r' : Rule} {rules rules' : List Rule} {name : String}

/-! ## Section 2: Whoever goes by a list of rules -/

theorem find?_of_not_covers (before after : List Rule) (hNot : r.covers name = false) :
    find? (before ++ r :: after) name = find? (before ++ after) name := by
  simp [find?, List.find?_append, hNot]

/-- What is required under a name that is not local is in the registry, or a rule covers it, or it is
    nowhere. -/
theorem requireLoaded_of_remote (l : Loader) (dir : Option String)
    (hRemote : LocalPath.isLocal name = false) :
    Load.requireLoaded l name dir = ExceptT.mk (.ask (.store (.registered name)) fun
      | none =>
        match if l.hasDynamic then find? l.rules name else none with
        | none => .done (.error (.notRegistered name))
        | some r => ExceptT.run do return ⟨name, ← Load.loadWithRule l name r⟩
      | some m => .done (.ok ⟨name, m⟩)) := by
  unfold Load.requireLoaded Load.route
  rw [hRemote, Bool.and_false, if_neg Bool.false_ne_true]
  refine congrArg (Load.ask _) (funext fun found => ?_)
  cases found with
  | some m => rfl
  | none =>
    generalize (if l.hasDynamic then find? l.rules name else none) = rule
    cases rule <;> rfl

theorem requireLoaded_congr (l : Loader) (dir : Option String)
    (hFound : find? rules name = find? rules' name) (hRemote : LocalPath.isLocal name = false) :
    Load.requireLoaded { l with rules := rules } name dir =
      Load.requireLoaded { l with rules := rules' } name dir := by
  rw [requireLoaded_of_remote _ _ hRemote, requireLoaded_of_remote _ _ hRemote]
  dsimp only
  rw [hFound]
  rfl

/-- Two ways to write a rule that name one package agree on a name that neither covers. -/
theorem agreeOn_of_not_covers {start start' : String}
    (hPackage : (r.startingWith start).packageName = (r.startingWith start').packageName)
    (hIcon : (r.startingWith start).icon name = (r.startingWith start').icon name)
    (hNot : (r.startingWith start).covers name = false)
    (hNot' : (r.startingWith start').covers name = false) :
    (r.startingWith start).AgreeOn (r.startingWith start') name := by
  have hFound : ∀ before after : List Rule,
      find? (before ++ r.startingWith start :: after) name =
        find? (before ++ r.startingWith start' :: after) name := fun before after => by
    rw [find?_of_not_covers before after hNot, find?_of_not_covers before after hNot']
  exact {
    covers := hNot.trans hNot'.symm
    icon := hIcon
    package := hPackage
    file := by rw [hIcon]; rfl
    global := by rw [hIcon]; rfl
    candidates := fun p => by
      rw [Providers.ruleCandidates, Providers.ruleCandidates, hPackage, hIcon]
      rfl
    found := fun before after => by
      simp only [List.findIdx?_append, List.findIdx?_cons, hNot, hNot']
    collected := fun before after source => by
      rw [Source.dynamicSpecifiers, Source.dynamicSpecifiers, List.mem_filter, List.mem_filter,
        hFound]
    loaded := fun l before after => by rw [Load.loadUnder, Load.loadUnder, hFound]
    required := fun l before after dir => requireLoaded_congr l dir (hFound before after) }

/-! ## Section 3: The two ways to write a rule -/

theorem covers_iff (hStart : r.start ≠ "") :
    r.covers name = true ↔ ∃ rest, name = r.start ++ rest := by
  simp [covers, hStart, ← Text.isSome_stripPrefix?, Option.isSome_iff_exists,
    Text.stripPrefix?_eq_some_iff]

theorem icon_append {rest : String} (hName : name = r.start ++ rest) : r.icon name = rest := by
  rw [icon, Text.stripPrefix?_eq_some_iff.mpr hName, Option.getD_some]

/-- A name that does not fall under a rule is its own icon. -/
theorem icon_of_not_covers (hStart : r.start ≠ "") (hNot : r.covers name = false) :
    r.icon name = name := by
  have hNone : Text.stripPrefix? r.start name = none := by
    rw [← Option.not_isSome_iff_eq_none, Option.isSome_iff_exists]
    rintro ⟨rest, hRest⟩
    have hCovers := (covers_iff hStart).mpr ⟨rest, Text.stripPrefix?_eq_some_iff.mp hRest⟩
    exact Bool.false_ne_true (hNot.symm.trans hCovers)
  rw [icon, hNone, Option.getD_none]

/-- The package is named by what is before the slash, once a star is taken off. -/
theorem packageName_startingWith {start base : String}
    (hStem : (Text.stripSuffix? "*" start).getD start = base ++ "/") :
    (r.startingWith start).packageName = r.package.getD base := by
  have hSlash : Text.stripSuffix? "/" (base ++ "/") = some base :=
    Text.stripSuffix?_eq_some_iff.mpr rfl
  unfold packageName
  cases hPackage : r.package with
  | some name => simp [startingWith, hPackage]
  | none => simp [startingWith, hPackage, hStem, hSlash]

/-- The rule for all names below a base. -/
def slashed (r : Rule) (base : String) : Rule := r.startingWith (base ++ "/")

/-- The rule for all names below a base, written with a star. -/
def starred (r : Rule) (base : String) : Rule := r.startingWith (base ++ "/*")

variable {base : String}

theorem start_slashed_ne_empty : (r.slashed base).start ≠ "" := by simp [slashed, startingWith]

theorem start_starred_ne_empty : (r.starred base).start ≠ "" := by simp [starred, startingWith]

theorem covers_slashed_iff :
    (r.slashed base).covers name = true ↔ ∃ rest, name = base ++ "/" ++ rest :=
  covers_iff start_slashed_ne_empty

theorem covers_starred_iff :
    (r.starred base).covers name = true ↔ ∃ rest, name = base ++ "/*" ++ rest :=
  covers_iff start_starred_ne_empty

theorem packageName_slashed (r : Rule) (base : String) :
    (r.slashed base).packageName = r.package.getD base := by
  refine packageName_startingWith ?_
  have hNone : Text.stripSuffix? "*" (base ++ "/") = none := by
    rw [Option.eq_none_iff_forall_ne_some]
    intro rest hRest
    have hEnd := congrArg (·.toList.getLast?) (Text.stripSuffix?_eq_some_iff.mp hRest)
    simp at hEnd
  rw [hNone, Option.getD_none]

theorem packageName_starred (r : Rule) (base : String) :
    (r.starred base).packageName = r.package.getD base := by
  refine packageName_startingWith ?_
  have hSome : Text.stripSuffix? "*" (base ++ "/*") = some (base ++ "/") := by
    rw [Text.stripSuffix?_eq_some_iff, String.append_assoc]
    rfl
  rw [hSome, Option.getD_some]

/-- What is covered with the star is covered without it, too, and then the star begins the icon. -/
theorem icons_of_covers_starred (hCovers : (r.starred base).covers name = true) :
    (r.slashed base).covers name = true ∧
      (r.slashed base).icon name = "*" ++ (r.starred base).icon name := by
  obtain ⟨rest, hName⟩ := covers_starred_iff.mp hCovers
  have hSlash : name = base ++ "/" ++ ("*" ++ rest) := by
    rw [hName, show "/*" = "/" ++ "*" from rfl]
    simp only [String.append_assoc]
  refine ⟨covers_slashed_iff.mpr ⟨_, hSlash⟩, ?_⟩
  rw [icon_append (r := r.starred base) hName, icon_append (r := r.slashed base) hSlash]

theorem not_covers_starred (hNot : (r.slashed base).covers name = false) :
    (r.starred base).covers name = false := by
  by_contra hCovers
  rw [Bool.not_eq_false] at hCovers
  exact Bool.false_ne_true (hNot.symm.trans (icons_of_covers_starred hCovers).1)

/-- **A rule written with a star agrees with the one written with a slash exactly on the names that
    neither covers.** Both name one package, and make the same of one icon. But a name falls under the
    first only with the star in it, and then it is another icon to the second. -/
theorem agreeOn_starred_iff (r : Rule) (base name : String) :
    ((r.slashed base).AgreeOn (r.starred base) name ↔ (r.slashed base).covers name = false) ∧
    ((r.slashed base).covers name = true ↔ ∃ rest, name = base ++ "/" ++ rest) ∧
    ((r.starred base).covers name = true ↔ ∃ rest, name = base ++ "/*" ++ rest) ∧
    (r.slashed base).packageName = (r.starred base).packageName ∧
    ∀ icon, (r.slashed base).fileFor icon = (r.starred base).fileFor icon ∧
      (r.slashed base).globalFor icon = (r.starred base).globalFor icon ∧
      ∀ p : Providers,
        p.ruleCandidates (r.slashed base) icon = p.ruleCandidates (r.starred base) icon := by
  have hPackage : (r.slashed base).packageName = (r.starred base).packageName := by
    rw [packageName_slashed, packageName_starred]
  refine ⟨⟨fun hAgree => ?_, fun hNot => ?_⟩, covers_slashed_iff, covers_starred_iff, hPackage,
    fun icon => ⟨rfl, rfl, fun p => ?_⟩⟩
  · by_contra hCovers
    rw [Bool.not_eq_false] at hCovers
    -- One icon would have a star more than the other.
    obtain ⟨-, hIcon⟩ := icons_of_covers_starred (hAgree.covers.symm.trans hCovers)
    have hLength := congrArg String.length (hAgree.icon.symm.trans hIcon)
    simp at hLength
  · have hNot' := not_covers_starred hNot
    refine agreeOn_of_not_covers hPackage ?_ hNot hNot'
    exact (icon_of_not_covers start_slashed_ne_empty hNot).trans
      (icon_of_not_covers start_starred_ne_empty hNot').symm
  · rw [Providers.ruleCandidates, Providers.ruleCandidates, hPackage]
    rfl

/-- Written with the star, the rule for the icons does not cover the icon `Home`. -/
theorem not_agreeOn_starred : ¬(slashed {} "icons").AgreeOn (starred {} "icons") "icons/Home" := by
  intro hAgree
  have hCovers := hAgree.covers
  revert hCovers
  decide

end Bundleless.Rule
