import Bundleless.Config.Settings
import Bundleless.Proofs.Trimming

/-! # Settings from an environment

    An environment is laid over the defaults one variable after the other.
    Every field goes by one key, so what it becomes is a matter of its own
    variable alone, and the order of the variables does not matter.
-/

namespace Bundleless

namespace Settings

/-! ## Section 1: Fields -/

/-- The fields of the settings, by the type of their values. -/
inductive Field : Type → Type where
  | configUrl : Field String
  | probeRetries : Field Nat
  | probeBackoffMs : Field Nat
  | allowGetFallback : Field Bool
  | proxyMode : Field ProxyMode
  | extensions : Field (List String)
  | clientLogEndpoint : Field String
  | ciLogQueryParam : Field String
  | timeout : Field Nat

namespace Field

variable {α : Type}

/-- The key that the field goes by. -/
def key : Field α → String
  | configUrl => "config-url"
  | probeRetries => "probe-retries"
  | probeBackoffMs => "probe-backoff-ms"
  | allowGetFallback => "allow-get-fallback"
  | proxyMode => "proxy-mode"
  | extensions => "extensions"
  | clientLogEndpoint => "client-log-endpoint"
  | ciLogQueryParam => "ci-log-query-param"
  | timeout => "timeout"

/-- What the settings have in the field. -/
def get (s : Settings) : Field α → α
  | configUrl => s.configUrl
  | probeRetries => s.probeRetries
  | probeBackoffMs => s.probeBackoffMs
  | allowGetFallback => s.allowGetFallback
  | proxyMode => s.proxyMode
  | extensions => s.extensions
  | clientLogEndpoint => s.clientLogEndpoint
  | ciLogQueryParam => s.ciLogQueryParam
  | timeout => s.timeout

/-- A value as it is read for the field. Numbers and lists of extensions can be of no use. -/
def read? : Field α → String → Option α
  | configUrl, v | clientLogEndpoint, v | ciLogQueryParam, v => some v
  | probeRetries, v => number? UInt32.size v
  | probeBackoffMs, v | timeout, v => number? UInt64.size v
  | allowGetFallback, v => some (v == "true")
  | proxyMode, v => some (.ofText v)
  | extensions, v => if extensionList v = [] then none else some (extensionList v)

/-- Settings are what they have in their fields. -/
theorem get_ext {s t : Settings} (hSame : ∀ {α : Type} (f : Field α), f.get s = f.get t) :
    s = t := by
  cases s
  cases t
  simp only [Settings.mk.injEq]
  exact ⟨hSame configUrl, hSame probeRetries, hSame probeBackoffMs, hSame allowGetFallback,
    hSame proxyMode, hSame extensions, hSame clientLogEndpoint, hSame ciLogQueryParam,
    hSame timeout⟩

/-- The field takes a value of its own key, if it can be read. -/
theorem get_set_key (f : Field α) (s : Settings) (v : String) :
    f.get (s.set f.key v) = (f.read? v).getD (f.get s) := by
  cases f with
  | extensions => cases hList : extensionList v <;> simp [set, key, get, read?, hList]
  | _ => simp [set, key, get, read?]

/-- The field keeps its value under any other key. -/
theorem get_set_of_ne {k : String} (f : Field α) (hNot : k ≠ f.key) (s : Settings) (v : String) :
    f.get (s.set k v) = f.get s := by
  -- By the key that is set, and then by the field: either they belong together, which is excluded,
  -- or the field is not the one that is changed.
  unfold set
  split <;> cases f <;> simp only [get, key, ne_eq, not_true_eq_false] at hNot ⊢
  -- A list of extensions may be of no use, and then nothing is changed at all.
  all_goals split <;> rfl

end Field

/-! ## Section 2: Environments -/

/-- The keys that are set by the variables of the environment, one for each that sets something. -/
def keysOf (env : List (String × String)) : List String :=
  env.filterMap fun x => variableKey? x.1

/-- A variable of the environment gives the key this value. -/
def Gives (env : List (String × String)) (key value : String) : Prop :=
  ∃ name, (name, value) ∈ env ∧ variableKey? name = some key

theorem Gives.mem_keysOf {env : List (String × String)} {key value : String}
    (hGives : Gives env key value) : key ∈ keysOf env := by
  obtain ⟨name, hMem, hKey⟩ := hGives
  exact List.mem_filterMap.mpr ⟨(name, value), hMem, hKey⟩

theorem gives_cons {env : List (String × String)} {name value key v : String} :
    Gives ((name, value) :: env) key v ↔
      (v = value ∧ variableKey? name = some key) ∨ Gives env key v := by
  unfold Gives
  constructor
  · rintro ⟨n, hMem, hKey⟩
    rcases List.mem_cons.mp hMem with hHead | hTail
    · obtain ⟨rfl, rfl⟩ := Prod.mk.inj hHead
      exact Or.inl ⟨rfl, hKey⟩
    · exact Or.inr ⟨n, hTail, hKey⟩
  · rintro (⟨rfl, hKey⟩ | ⟨n, hMem, hKey⟩)
    · exact ⟨name, List.mem_cons_self, hKey⟩
    · exact ⟨n, List.mem_cons_of_mem _ hMem, hKey⟩

/-- The settings `t` are `s` overlaid with the environment: every field has what its own variable
    gives, if that can be read, and else what it has had. -/
structure Overlays (env : List (String × String)) (s t : Settings) : Prop where
  absent : ∀ {α : Type} (f : Field α), (∀ v, ¬Gives env f.key v) → f.get t = f.get s
  given : ∀ {α : Type} (f : Field α) (v : String), Gives env f.key v →
    f.get t = (f.read? v).getD (f.get s)

variable {env env' : List (String × String)} {s t t' : Settings} {name value : String}

/-- There is one way to overlay settings with an environment. -/
theorem Overlays.unique (hFirst : Overlays env s t) (hSecond : Overlays env s t') : t = t' := by
  apply Field.get_ext
  intro α f
  by_cases hGives : ∃ v, Gives env f.key v
  · obtain ⟨v, hGives⟩ := hGives
    rw [hFirst.given f v hGives, hSecond.given f v hGives]
  · have hAbsent : ∀ v, ¬Gives env f.key v := fun v hV => hGives ⟨v, hV⟩
    rw [hFirst.absent f hAbsent, hSecond.absent f hAbsent]

/-- It does not matter in which order the variables are. -/
theorem Overlays.perm (hPerm : env'.Perm env) (hOverlays : Overlays env s t) :
    Overlays env' s t := by
  have hGives : ∀ key v, Gives env' key v ↔ Gives env key v := by
    intro key v
    unfold Gives
    simp only [hPerm.mem_iff]
  refine ⟨?_, ?_⟩
  · intro α f hAbsent
    exact hOverlays.absent f fun v hV => hAbsent v ((hGives f.key v).mpr hV)
  · intro α f v hV
    exact hOverlays.given f v ((hGives f.key v).mp hV)

/-- A variable changes the field that goes by its key. -/
theorem Field.get_setVariable {α : Type} (f : Field α) (s : Settings) (name value : String) :
    f.get (s.setVariable name value) =
      if variableKey? name = some f.key then (f.read? value).getD (f.get s) else f.get s := by
  unfold setVariable
  cases hKey : variableKey? name with
  | none => simp
  | some key =>
    by_cases hOwn : key = f.key
    · subst hOwn
      simp [f.get_set_key]
    · simp [f.get_set_of_ne hOwn, hOwn]

/-- **One more variable**, whose key is not among those of the others. -/
theorem Overlays.cons (hFresh : ∀ key, variableKey? name = some key → key ∉ keysOf env)
    (hRest : Overlays env (s.setVariable name value) t) : Overlays ((name, value) :: env) s t := by
  refine ⟨?_, ?_⟩
  · intro α f hAbsent
    have hOther : variableKey? name ≠ some f.key :=
      fun hKey => hAbsent value (gives_cons.mpr (Or.inl ⟨rfl, hKey⟩))
    rw [hRest.absent f fun v hV => hAbsent v (gives_cons.mpr (Or.inr hV)), f.get_setVariable,
      if_neg hOther]
  · intro α f v hGives
    rcases gives_cons.mp hGives with ⟨rfl, hKey⟩ | hGives
    · -- The others leave the field as it is now.
      rw [hRest.absent f fun w hW => hFresh f.key hKey hW.mem_keysOf, f.get_setVariable, if_pos hKey]
    · have hOther : variableKey? name ≠ some f.key :=
        fun hKey => hFresh f.key hKey hGives.mem_keysOf
      rw [hRest.given f v hGives, f.get_setVariable, if_neg hOther]

/-- **An environment of distinct keys is laid over settings**, one variable after the other. -/
theorem overlays_foldl (hDistinct : (keysOf env).Nodup) (s : Settings) :
    Overlays env s (env.foldl (fun s (name, value) => s.setVariable name value) s) := by
  induction env generalizing s with
  | nil =>
    refine ⟨fun f _ => rfl, ?_⟩
    rintro α f v ⟨name, hMem, -⟩
    cases hMem
  | cons x env ih =>
    obtain ⟨name, value⟩ := x
    rw [List.foldl_cons]
    cases hKey : variableKey? name with
    | none =>
      have hKeys : keysOf ((name, value) :: env) = keysOf env := List.filterMap_cons_none hKey
      rw [hKeys] at hDistinct
      exact Overlays.cons (fun key hIs => by rw [hKey] at hIs; cases hIs) (ih hDistinct _)
    | some key =>
      have hKeys : keysOf ((name, value) :: env) = key :: keysOf env :=
        List.filterMap_cons_some hKey
      rw [hKeys, List.nodup_cons] at hDistinct
      refine Overlays.cons ?_ (ih hDistinct.2 _)
      intro key' hIs
      rw [hKey] at hIs
      rw [← Option.some.inj hIs]
      exact hDistinct.1

/-! ## Section 3: Extensions -/

/-- An extension as it is tried: it begins with a dot, and there is no blank around it. -/
def IsExtension (e : String) : Prop :=
  Text.startsWith "." e = true ∧ Text.trim e = e

/-- There are extensions to try, and they are as they have to be. -/
def HasExtensions (s : Settings) : Prop :=
  s.extensions ≠ [] ∧ ∀ e ∈ s.extensions, IsExtension e

theorem trim_dotted {e : String} (hTrimmed : Text.trim e = e) :
    Text.trim ("." ++ e) = "." ++ e := by
  rw [← String.toList_inj, Text.trim, Text.toList_via] at hTrimmed ⊢
  rw [String.toList_append]
  exact Chars.trimWhile_cons_of_neg (by decide) hTrimmed

theorem isExtension_of_mem {e text : String} (hMem : e ∈ extensionList text) : IsExtension e := by
  unfold extensionList at hMem
  obtain ⟨piece, hPiece, rfl⟩ := List.mem_map.mp hMem
  obtain ⟨raw, -, rfl⟩ := List.mem_map.mp (List.mem_filter.mp hPiece).1
  have hTrimmed : Text.trim (Text.trim raw) = Text.trim raw := Text.trim_trim raw
  by_cases hDot : Text.startsWith "." (Text.trim raw) = true
  · rw [if_pos hDot]
    exact ⟨hDot, hTrimmed⟩
  · rw [if_neg hDot]
    refine ⟨?_, trim_dotted hTrimmed⟩
    rw [Text.startsWith_iff, String.toList_append]
    exact List.prefix_append _ _

theorem hasExtensions_default : HasExtensions {} := by
  refine ⟨List.cons_ne_nil _ _, ?_⟩
  unfold IsExtension
  decide

/-- **Whatever is set, there are extensions left.** -/
theorem HasExtensions.set (hHas : s.HasExtensions) (key value : String) :
    (s.set key value).HasExtensions := by
  by_cases hKey : key = Field.extensions.key
  · subst hKey
    have hSet : (s.set Field.extensions.key value).extensions =
        (Field.extensions.read? value).getD s.extensions := Field.extensions.get_set_key s value
    unfold HasExtensions
    rw [hSet]
    unfold Field.read?
    dsimp only
    split
    · exact hHas
    · next hSome => exact ⟨hSome, fun e hMem => isExtension_of_mem hMem⟩
  · have hSame : (s.set key value).extensions = s.extensions :=
      Field.extensions.get_set_of_ne hKey s value
    unfold HasExtensions
    rw [hSame]
    exact hHas

theorem HasExtensions.foldl_set (hHas : s.HasExtensions) (calls : List (String × String)) :
    (calls.foldl (fun s (key, value) => s.set key value) s).HasExtensions := by
  induction calls generalizing s with
  | nil => exact hHas
  | cons x calls ih => exact ih (hHas.set x.1 x.2)

/-! ## Section 4: The overlay -/

/-- **An environment is laid over the defaults in whatever order it is gone through**, as long as no
    two variables set the same key: every field is a matter of its own variable. And however the
    defaults are changed, key by key, there are always extensions to try. -/
theorem ofEnvironment_order_free :
    (∀ env, (keysOf env).Nodup → Overlays env {} (ofEnvironment env) ∧
      ∀ env' : List (String × String), env'.Perm env → ofEnvironment env' = ofEnvironment env) ∧
    ∀ calls : List (String × String),
      (calls.foldl (fun s (key, value) => s.set key value) ({} : Settings)).HasExtensions := by
  refine ⟨?_, hasExtensions_default.foldl_set⟩
  intro env hDistinct
  have hOverlays : Overlays env {} (ofEnvironment env) := overlays_foldl hDistinct {}
  refine ⟨hOverlays, ?_⟩
  intro env' hPerm
  have hDistinct' : (keysOf env').Nodup := (hPerm.filterMap _).nodup_iff.mpr hDistinct
  exact (overlays_foldl hDistinct' {}).unique (hOverlays.perm hPerm)

/-- An environment with a number that cannot be read and a list with blanks in it. -/
def scattered : List (String × String) :=
  [("HOME", "/home/e"), ("SPACEY_BOOT_TIMEOUT", "soon"), ("SPACEY_BOOT_PROBE_RETRIES", "7"),
    ("SPACEY_BOOT_Extensions", " vue , ,.mts"), ("SPACEY_BOOT_UNHEARD_OF", "1")]

/-- It comes to the same from its end to its beginning. -/
theorem ofEnvironment_order_free_scattered :
    (keysOf scattered).Nodup ∧ ofEnvironment scattered.reverse =
      { probeRetries := 7, extensions := [".vue", ".mts"] } := by
  have hDistinct : (keysOf scattered).Nodup := by decide
  have hForward : ofEnvironment scattered =
      { probeRetries := 7, extensions := [".vue", ".mts"] } := by decide
  refine ⟨hDistinct, ?_⟩
  rw [← hForward]
  exact (ofEnvironment_order_free.1 scattered hDistinct).2 _ (List.reverse_perm _)

end Settings

end Bundleless
