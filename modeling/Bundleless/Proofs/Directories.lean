import Bundleless.Proofs.SharedKeys
import Bundleless.Proofs.Trimming

/-! # Directories with one key

    The key of a request has its directory without the slashes at the ends.
    Where neither the directory nor the specifier has the bar that stands
    between them, a request has its key in common only with requests for the
    same specifier from a directory of the same name. There are two of these
    directories, one seen from the page and one seen from the root of the
    site, and all comes down to whether both are one.
-/

namespace Bundleless

/-! ## Section 1: Keys -/

namespace LocalPath

variable {specifier specifier' dir dir' : String}

theorem trimDir_trimDir (dir : String) : trimDir (trimDir dir) = trimDir dir := by
  simp [trimDir, Text.trimSlashes, Text.via, Chars.trimWhile_trimWhile]

theorem trimDir_slash (dir : String) : trimDir ("/" ++ dir) = trimDir dir := by
  simp [trimDir, Text.trimSlashes, Text.via, Chars.trimWhile]

/-- A directory without slashes at its ends is seen from the page. -/
theorem startsWith_trimDir (dir : String) : Text.startsWith "/" (trimDir dir) = false := by
  have hDrop : (trimDir dir).toList.dropWhile (· == '/') = (trimDir dir).toList := by
    simp [trimDir, Text.trimSlashes, Chars.dropWhile_trimWhile]
  cases hChars : (trimDir dir).toList with
  | nil => simp [Text.startsWith, Chars.startsWith, Chars.stripPrefix?, hChars]
  | cons c cs =>
    rw [hChars] at hDrop
    have hNe : c ≠ '/' := by simpa using Chars.head_of_dropWhile hDrop
    simp [Text.startsWith, Chars.startsWith, Chars.stripPrefix?, hChars, hNe.symm]

theorem startsWith_slash (dir : String) : Text.startsWith "/" ("/" ++ dir) = true := by
  simp [Text.startsWith, Chars.startsWith, Chars.stripPrefix?]

/-- A character that is nowhere else parts a text in one way. -/
theorem append_cons_inj {a b a' b' : List Char} {c : Char} (hNotA : c ∉ a) (hNotB : c ∉ b)
    (hEq : a' ++ c :: b' = a ++ c :: b) : a' = a ∧ b' = b := by
  rcases List.append_eq_append_iff.mp hEq with ⟨more, rfl, hRest⟩ | ⟨more, rfl, hRest⟩
  · cases more with
    | nil => simpa using hRest
    | cons x more =>
      obtain ⟨rfl, -⟩ := List.cons.inj hRest
      simp at hNotA
  · cases more with
    | nil => simpa [eq_comm] using hRest
    | cons x more =>
      obtain ⟨rfl, rfl⟩ := List.cons.inj hRest
      simp at hNotB

theorem toList_key (specifier dir : String) :
    (key specifier dir).toList = (trimDir dir).toList ++ '|' :: specifier.toList := by
  simp [key]

/-- The key tells the specifier, and the directory up to the slashes at its ends, where the bar
    between them is the only one. -/
theorem key_eq_iff (hSpecifier : '|' ∉ specifier.toList) (hDir : '|' ∉ dir.toList) :
    key specifier' dir' = key specifier dir ↔
      specifier' = specifier ∧ trimDir dir' = trimDir dir := by
  refine ⟨fun hKey => ?_, fun ⟨hSame, hTrim⟩ => by rw [key, hTrim, hSame, key]⟩
  have hTrimmed : '|' ∉ (trimDir dir).toList := by
    rw [trimDir, Text.trimSlashes, Text.toList_via]
    exact fun hMem => hDir (Chars.trimWhile_subset _ hMem)
  have hChars := congrArg String.toList hKey
  rw [toList_key, toList_key] at hChars
  obtain ⟨hTrim, hSame⟩ := append_cons_inj hTrimmed hSpecifier hChars
  exact ⟨String.toList_inj.mp hSame, String.toList_inj.mp hTrim⟩

/-! ## Section 2: The two directories of a name -/

/-- What a specifier means depends on the name of the directory, and on whether it is seen from the
    root of the site or from the page. -/
theorem resolve_eq_of_trimDir (specifier : String) (page : Page)
    (hTrim : trimDir dir' = trimDir dir) :
    resolve specifier dir' page = resolve specifier ("/" ++ trimDir dir) page ∨
      resolve specifier dir' page = resolve specifier (trimDir dir) page := by
  cases hSlash : Text.startsWith "/" dir'
  · right
    have hReference : dirReference dir' = dirReference (trimDir dir) := by
      simp only [dirReference, hSlash, hTrim, startsWith_trimDir, trimDir_trimDir]
    rw [resolve, hReference, resolve]
  · left
    have hReference : dirReference dir' = dirReference ("/" ++ trimDir dir) := by
      simp only [dirReference, hSlash, hTrim, startsWith_slash, trimDir_slash, trimDir_trimDir]
    rw [resolve, hReference, resolve]

end LocalPath

namespace Loader

variable {l : Loader} {specifier dir : String}

/-- **Without further bars a key determines what is meant just when all that is found from either
    directory of the name is a candidate of the request.** -/
theorem determines_iff (hSpecifier : '|' ∉ specifier.toList) (hDir : '|' ∉ dir.toList) :
    l.Determines specifier dir ↔
      ∀ path, l.Means specifier ("/" ++ LocalPath.trimDir dir) path ∨
        l.Means specifier (LocalPath.trimDir dir) path → l.MayBeAt specifier dir path := by
  constructor
  · rintro hDetermines path (hMeans | hMeans)
    · refine hDetermines _ _ path ((LocalPath.key_eq_iff hSpecifier hDir).mpr ⟨rfl, ?_⟩) hMeans
      rw [LocalPath.trimDir_slash, LocalPath.trimDir_trimDir]
    · exact hDetermines _ _ path ((LocalPath.key_eq_iff hSpecifier hDir).mpr
        ⟨rfl, LocalPath.trimDir_trimDir dir⟩) hMeans
  · intro hBoth specifier' dir' path hKey hMeans
    -- The other request is for the same specifier, from one of the two directories.
    obtain ⟨rfl, hTrim⟩ := (LocalPath.key_eq_iff hSpecifier hDir).mp hKey
    obtain ⟨basePath, hResolve, hFinds⟩ := hMeans
    refine hBoth path ?_
    rcases LocalPath.resolve_eq_of_trimDir specifier' l.page hTrim with hSame | hSame
    · exact Or.inl ⟨basePath, hSame.symm.trans hResolve, hFinds⟩
    · exact Or.inr ⟨basePath, hSame.symm.trans hResolve, hFinds⟩

/-- **Where both directories of the name are one, a request gets what it means in every run.** -/
theorem agrees_of_join_eq (hSpecifier : '|' ∉ specifier.toList) (hDir : '|' ∉ dir.toList)
    (hOne : l.page.join (LocalPath.dirReference ("/" ++ LocalPath.trimDir dir)) =
      l.page.join (LocalPath.dirReference (LocalPath.trimDir dir))) : l.Agrees specifier dir := by
  refine Determines.agrees ((determines_iff hSpecifier hDir).mpr fun path hEither => ?_)
  have hOne : LocalPath.resolve specifier ("/" ++ LocalPath.trimDir dir) l.page =
      LocalPath.resolve specifier (LocalPath.trimDir dir) l.page := by
    unfold LocalPath.resolve
    rw [hOne]
  have hOwn : LocalPath.resolve specifier dir l.page =
      LocalPath.resolve specifier (LocalPath.trimDir dir) l.page := by
    have hTrim : LocalPath.trimDir dir = LocalPath.trimDir dir := rfl
    rcases LocalPath.resolve_eq_of_trimDir specifier l.page hTrim with hSame | hSame
    · rw [hSame, hOne]
    · exact hSame
  obtain ⟨basePath, hResolve, hFinds⟩ : l.Means specifier (LocalPath.trimDir dir) path := by
    rcases hEither with ⟨basePath, hResolve, hFinds⟩ | hMeans
    · exact ⟨basePath, hOne.symm.trans hResolve, hFinds⟩
    · exact hMeans
  exact ⟨basePath, hOwn.trans hResolve, hFinds.1⟩

/-- On a page at the root of its site they are one. -/
example : Replay.loader.page.join (LocalPath.dirReference "/src") =
    Replay.loader.page.join (LocalPath.dirReference "src") := by rfl

end Loader

end Bundleless
