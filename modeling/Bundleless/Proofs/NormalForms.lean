import Bundleless.Proofs.Bases

/-! # Normal forms that are normal

    To bring a base into its form once more should change nothing, and a form
    should begin with a slash or with a scheme of the web and end in exactly
    one slash (`Base.HasNormalForm`). That fails for one kind of text: a
    scheme of the web that nothing follows but slashes. The slashes are
    dropped from its end with those that make it a scheme, one is put back,
    and what is there then begins like no URL, so that the next time it is
    taken for a host.
-/

namespace Bundleless

namespace Base

/-! ## Section 1: What a form should be like -/

/-- The text begins like a path on the page's own host or like a URL of the web. -/
def BeginsAsBase (s : String) : Prop :=
  ∃ w ∈ ["/", "http://", "https://"], w.toList <+: s.toList

/-- The text ends in a slash, and in no more than one. -/
def EndsInOneSlash (s : String) : Prop :=
  ∃ stem, s.toList = stem ++ ['/'] ∧ stem.getLast? ≠ some '/'

/-- The form of the text is a normal one: it is its own form, it is empty exactly for a blank text,
    and else it begins and ends as a base does. -/
structure HasNormalForm (raw : String) : Prop where
  fixed : normalize (normalize raw) = normalize raw
  empty_iff : normalize raw = "" ↔ Text.isBlank raw = true
  begins : Text.isBlank raw = false → BeginsAsBase (normalize raw)
  ends : Text.isBlank raw = false → EndsInOneSlash (normalize raw)

/-- But for blanks around it, the text is a scheme of the web with its two slashes, and perhaps with
    more of them. -/
def IsBareScheme (raw : String) : Prop :=
  ∃ scheme ∈ ["http:", "https:"], ∃ more,
    (Text.trim raw).toList = scheme.toList ++ '/' :: '/' :: List.replicate more '/'

variable {raw s : String}

theorem beginsAsBase_iff :
    BeginsAsBase s ↔ (Text.startsWith "/" s || isWeb s) = true := by
  rw [Bool.or_eq_true_iff, Text.startsWith_iff, isWeb_iff]
  simp [BeginsAsBase]

/-- What is dropped from the end are slashes. -/
theorem exists_slashes (s : String) : ∃ more,
    s.toList = (Text.dropEndSlashes s).toList ++ List.replicate more '/' := by
  -- From the end the text begins with slashes.
  generalize hEnd : s.toList.reverse = cs
  have hSlashes : cs.takeWhile (· == '/') =
      List.replicate (cs.takeWhile (· == '/')).length '/' := by
    refine List.eq_replicate_iff.mpr ⟨rfl, fun c hMem => ?_⟩
    simpa using List.all_eq_true.mp List.all_takeWhile c hMem
  refine ⟨(cs.takeWhile (· == '/')).length, ?_⟩
  calc s.toList
      = cs.reverse := by rw [← hEnd, List.reverse_reverse]
    _ = (cs.takeWhile (· == '/') ++ cs.dropWhile (· == '/')).reverse := by
        rw [List.takeWhile_append_dropWhile]
    _ = (cs.dropWhile (· == '/')).reverse ++ List.replicate _ '/' := by
        rw [List.reverse_append, hSlashes, List.reverse_replicate]
    _ = (Text.dropEndSlashes s).toList ++ List.replicate _ '/' := by
        rw [Text.dropEndSlashes, Text.toList_via, Chars.dropEndWhile, hEnd]

/-! ## Section 2: What is left of a scheme -/

/-- A form is a scheme with one slash exactly where nothing but a scheme with two slashes or more was
    there. -/
theorem normalize_eq_scheme_iff {scheme : String} (hScheme : scheme ∈ ["http:", "https:"]) :
    normalize raw = scheme ++ "/" ↔ ∃ more,
      (Text.trim raw).toList = scheme.toList ++ '/' :: '/' :: List.replicate more '/' := by
  generalize hBase : Text.trim raw = base
  constructor
  · intro hForm
    obtain ⟨count, hCount⟩ := exists_slashes base
    unfold normalize at hForm
    rw [hBase] at hForm
    dsimp only at hForm
    split at hForm
    · -- A blank text has no form.
      have hLength := congrArg (·.toList.length) hForm
      simp at hLength
    split at hForm
    · next hKept =>
      have hStem : Text.dropEndSlashes base = scheme := by simpa using hForm
      rw [hStem] at hCount
      -- The scheme alone is no URL of the web: two of the slashes are needed for that.
      have hTwo : 2 ≤ count := by
        obtain ⟨w, hWord, hPrefix⟩ := beginsAsBase_iff.mpr hKept
        rw [hCount] at hPrefix
        have hLength := hPrefix.length_le
        simp only [List.mem_cons, List.not_mem_nil, or_false] at hScheme hWord
        rcases hScheme with rfl | rfl <;> rcases hWord with rfl | rfl | rfl <;>
          simp at hPrefix hLength <;> omega
      obtain ⟨more, rfl⟩ := Nat.exists_eq_add_of_le' hTwo
      exact ⟨more, hCount⟩
    · -- A host has more before it than there is room for.
      have hLength := congrArg (·.toList.length) hForm
      simp only [List.mem_cons, List.not_mem_nil, or_false] at hScheme
      rcases hScheme with rfl | rfl <;> simp at hLength
  · rintro ⟨more, hIs⟩
    have hSome : base ≠ "" := by
      rintro rfl
      simp at hIs
    have hWeb : isWeb base = true := by
      refine isWeb_iff.mpr ⟨scheme ++ "//", ?_, List.replicate more '/', by simp [hIs]⟩
      simp only [List.mem_cons, List.not_mem_nil, or_false] at hScheme
      rcases hScheme with rfl | rfl <;> decide
    have hStem : Text.dropEndSlashes base = scheme := by
      have hSlashes : Chars.dropEndWhile (· == '/') ('/' :: '/' :: List.replicate more '/') = [] := by
        rw [Chars.dropEndWhile_eq_nil_iff]
        simp
      rw [← String.toList_inj, Text.dropEndSlashes, Text.toList_via, hIs,
        Chars.dropEndWhile_append, if_pos hSlashes]
      simp only [List.mem_cons, List.not_mem_nil, or_false] at hScheme
      rcases hScheme with rfl | rfl <;> decide
    simp [normalize, hBase, hSome, hWeb, hStem]

theorem isBareScheme_iff :
    IsBareScheme raw ↔ normalize raw = "http:/" ∨ normalize raw = "https:/" := by
  have hHttp := @normalize_eq_scheme_iff raw "http:" (by simp)
  have hHttps := @normalize_eq_scheme_iff raw "https:" (by simp)
  simp only [IsBareScheme, List.mem_cons, List.not_mem_nil, or_false, exists_eq_or_imp,
    exists_eq_left, ← hHttp, ← hHttps]
  rfl

theorem endsInOneSlash_normalize (hNot : Text.isBlank raw = false) :
    EndsInOneSlash (normalize raw) := by
  obtain ⟨⟨stem, hStem, hEnd⟩, -⟩ := normalize_shape hNot
  refine ⟨stem, hStem, fun hSlash => ?_⟩
  -- A slash at the end of the stem would have been dropped.
  obtain ⟨front, rfl⟩ := List.getLast?_eq_some_iff.mp hSlash
  rw [Chars.dropEndWhile_append, if_pos (by decide)] at hEnd
  have hLength := congrArg List.length hEnd
  have hLe : (Chars.dropEndWhile (· == '/') front).length ≤ front.length := by
    have hSuffix : front.reverse.dropWhile (· == '/') <:+ front.reverse := List.dropWhile_suffix _
    simpa [Chars.dropEndWhile] using hSuffix.length_le
  simp at hLength
  omega

/-! ## Section 3: The exact condition -/

/-- **The form of a text is normal unless the text is a scheme alone.** In every case it is empty only
    for a blank text and ends in one slash, and to bring it into its form a second time and a third
    is the same. -/
theorem hasNormalForm_iff (raw : String) :
    (HasNormalForm raw ↔ ¬IsBareScheme raw) ∧
    (normalize raw = "" ↔ Text.isBlank raw = true) ∧
    (Text.isBlank raw = false → EndsInOneSlash (normalize raw)) ∧
    normalize (normalize (normalize raw)) = normalize (normalize raw) := by
  have hFixed : ¬IsBareScheme raw → normalize (normalize raw) = normalize raw := by
    intro hNot
    by_cases hEmpty : normalize raw = ""
    · rw [hEmpty]
      decide
    · exact (isForm_normalize hEmpty).normalize_eq_iff.mpr (not_or.mp (mt isBareScheme_iff.mpr hNot))
  refine ⟨⟨fun hNormal hBare => ?_, fun hNot => ?_⟩, normalize_eq_empty_iff,
    endsInOneSlash_normalize, ?_⟩
  · have hTwice := hNormal.fixed
    rcases isBareScheme_iff.mp hBare with hIs | hIs <;> rw [hIs] at hTwice <;> revert hTwice <;> decide
  · refine ⟨hFixed hNot, normalize_eq_empty_iff, fun hSome => ?_, endsInOneSlash_normalize⟩
    obtain ⟨-, hBegins | hScheme⟩ := normalize_shape hSome
    · exact beginsAsBase_iff.mpr hBegins
    · exact absurd (isBareScheme_iff.mpr hScheme) hNot
  · by_cases hBare : IsBareScheme raw
    · rcases isBareScheme_iff.mp hBare with hIs | hIs <;> rw [hIs] <;> decide
    · rw [hFixed hBare, hFixed hBare]

/-- A scheme alone becomes `http:/`, which is no URL of the web, and that becomes a host. -/
theorem not_hasNormalForm : ¬HasNormalForm "http://" := by
  intro hNormal
  have hTwice := hNormal.fixed
  revert hTwice
  decide

end Base

end Bundleless
