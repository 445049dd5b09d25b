import Bundleless.Text.Basic
import Mathlib.Data.List.TakeWhile

/-! # Trimmed texts

    What is dropped at the ends of a text, and what it begins with then. A
    text that has been trimmed is trimmed already, and one whose first and
    last character stay is left as it is.
-/

namespace Bundleless

/-! ## Section 1: Dropping characters at the ends -/

namespace Chars

variable {p : Char → Bool} {c : Char}

/-- What is left begins with a character that stays. -/
theorem head_of_dropWhile {cs rest : List Char} (hLeft : cs.dropWhile p = c :: rest) :
    p c = false := by
  have hNot := List.head?_dropWhile_not p cs
  rw [hLeft] at hNot
  simpa using hNot

theorem dropWhile_dropWhile (cs : List Char) : (cs.dropWhile p).dropWhile p = cs.dropWhile p := by
  cases hLeft : cs.dropWhile p with
  | nil => rfl
  | cons c rest => exact List.dropWhile_cons_of_neg (by simp [head_of_dropWhile hLeft])

theorem dropEndWhile_dropEndWhile (cs : List Char) :
    dropEndWhile p (dropEndWhile p cs) = dropEndWhile p cs := by
  unfold dropEndWhile
  rw [List.reverse_reverse, dropWhile_dropWhile]

theorem dropEndWhile_cons_of_neg (hNot : p c = false) (cs : List Char) :
    dropEndWhile p (c :: cs) = c :: dropEndWhile p cs := by
  unfold dropEndWhile
  rw [List.reverse_cons, List.dropWhile_append]
  split
  · next hEmpty =>
    rw [List.isEmpty_iff.mp hEmpty]
    simp [hNot]
  · simp

/-- Dropping from the end leaves the first character that stays where it is. -/
theorem dropWhile_trimWhile (cs : List Char) : (trimWhile p cs).dropWhile p = trimWhile p cs := by
  unfold trimWhile
  cases hLeft : cs.dropWhile p with
  | nil => rfl
  | cons c rest =>
    have hNot : p c = false := head_of_dropWhile hLeft
    rw [dropEndWhile_cons_of_neg hNot]
    exact List.dropWhile_cons_of_neg (by simp [hNot])

/-- What is left begins with a character that stays. -/
theorem head_of_trimWhile (cs : List Char) : ∀ c ∈ (trimWhile p cs).head?, p c = false := by
  intro c hHead
  obtain ⟨rest, hLeft⟩ := List.head?_eq_some_iff.mp hHead
  have hDrop := dropWhile_trimWhile (p := p) cs
  rw [hLeft] at hDrop
  exact head_of_dropWhile hDrop

theorem trimWhile_trimWhile (cs : List Char) : trimWhile p (trimWhile p cs) = trimWhile p cs := by
  show dropEndWhile p ((trimWhile p cs).dropWhile p) = trimWhile p cs
  rw [dropWhile_trimWhile]
  exact dropEndWhile_dropEndWhile _

theorem trimWhile_subset (cs : List Char) : trimWhile p cs ⊆ cs := by
  intro c hMem
  have hMem : c ∈ cs.dropWhile p := by
    have hLeft := List.dropWhile_subset p (List.mem_reverse.mp hMem)
    exact List.mem_reverse.mp hLeft
  exact List.dropWhile_subset p hMem

/-- Nothing is trimmed where both ends stay. -/
theorem trimWhile_eq_self {cs : List Char} (hHead : ∀ c ∈ cs.head?, p c = false)
    (hLast : ∀ c ∈ cs.getLast?, p c = false) : trimWhile p cs = cs := by
  have hDrop : ∀ xs : List Char, (∀ c ∈ xs.head?, p c = false) → xs.dropWhile p = xs := by
    intro xs hFirst
    cases xs with
    | nil => rfl
    | cons x xs => exact List.dropWhile_cons_of_neg (by simp [hFirst x rfl])
  unfold trimWhile dropEndWhile
  rw [hDrop cs hHead, hDrop cs.reverse (by simpa using hLast), List.reverse_reverse]

/-- A character that stays can be put before a text that is trimmed. -/
theorem trimWhile_cons_of_neg {cs : List Char} (hNot : p c = false) (hSelf : trimWhile p cs = cs) :
    trimWhile p (c :: cs) = c :: cs := by
  have hDrop : cs.dropWhile p = cs := by
    rw [← hSelf]
    exact dropWhile_trimWhile cs
  unfold trimWhile at hSelf ⊢
  rw [hDrop] at hSelf
  rw [List.dropWhile_cons_of_neg (by simp [hNot]), dropEndWhile_cons_of_neg hNot, hSelf]

/-- Whatever is trimmed does not matter at the start. -/
theorem trimWhile_append {xs : List Char} (hAll : ∀ c ∈ xs, p c = true) (cs : List Char) :
    trimWhile p (xs ++ cs) = trimWhile p cs := by
  unfold trimWhile
  rw [List.dropWhile_append_of_pos hAll]

/-- What is trimmed at the ends is not among the characters that stay. -/
theorem filter_trimWhile (cs : List Char) :
    (trimWhile p cs).filter (!p ·) = cs.filter (!p ·) := by
  have hDrop : ∀ xs : List Char, (xs.dropWhile p).filter (!p ·) = xs.filter (!p ·) := by
    intro xs
    induction xs with
    | nil => rfl
    | cons x xs ih => cases hHead : p x <;> simp [hHead, ih]
  unfold trimWhile dropEndWhile
  rw [List.filter_reverse, hDrop, ← List.filter_reverse, List.reverse_reverse, hDrop]

/-- What is dropped at the end satisfies the condition. -/
theorem exists_dropEndWhile_append (cs : List Char) :
    ∃ rest, cs = dropEndWhile p cs ++ rest ∧ ∀ c ∈ rest, p c = true := by
  refine ⟨(cs.reverse.takeWhile p).reverse, ?_, fun c hMem => ?_⟩
  · rw [dropEndWhile, ← List.reverse_append, List.takeWhile_append_dropWhile, List.reverse_reverse]
  · exact List.mem_takeWhile_imp (List.mem_reverse.mp hMem)

theorem dropEndWhile_eq_nil_iff {cs : List Char} :
    dropEndWhile p cs = [] ↔ ∀ c ∈ cs, p c = true := by
  simp [dropEndWhile, List.dropWhile_eq_nil_iff]

/-- Something of the first piece is dropped only where all of the second one is. -/
theorem dropEndWhile_append (xs ys : List Char) : dropEndWhile p (xs ++ ys) =
    if dropEndWhile p ys = [] then dropEndWhile p xs else xs ++ dropEndWhile p ys := by
  by_cases hAll : dropEndWhile p ys = []
  · rw [if_pos hAll]
    unfold dropEndWhile at hAll ⊢
    rw [List.reverse_append, List.dropWhile_append, List.reverse_eq_nil_iff.mp hAll]
    rfl
  · rw [if_neg hAll]
    have hSome : ¬(ys.reverse.dropWhile p).isEmpty = true := by
      simpa [dropEndWhile] using hAll
    unfold dropEndWhile
    rw [List.reverse_append, List.dropWhile_append, if_neg hSome, List.reverse_append,
      List.reverse_reverse]

/-- Where nothing is dropped at the end the last character stays. -/
theorem last_of_dropEndWhile {cs : List Char} (hSelf : dropEndWhile p (cs ++ [c]) = cs ++ [c]) :
    p c = false := by
  refine Bool.eq_false_iff.mpr fun hAt => ?_
  have hLast : dropEndWhile p [c] = [] := dropEndWhile_eq_nil_iff.mpr (by simpa using hAt)
  rw [dropEndWhile_append, if_pos hLast] at hSelf
  obtain ⟨rest, hText, -⟩ := exists_dropEndWhile_append (p := p) cs
  have hLength := congrArg List.length hText
  rw [hSelf] at hLength
  simp at hLength

theorem trimWhile_eq_nil_iff {cs : List Char} : trimWhile p cs = [] ↔ ∀ c ∈ cs, p c = true := by
  unfold trimWhile
  rw [dropEndWhile_eq_nil_iff]
  constructor
  · intro hAll
    rw [← List.dropWhile_eq_nil_iff]
    cases hLeft : cs.dropWhile p with
    | nil => rfl
    | cons c rest =>
      have hHead : p c = true := hAll c (by simp [hLeft])
      rw [head_of_dropWhile hLeft] at hHead
      cases hHead
  · intro hAll c hMem
    exact hAll c (List.dropWhile_subset p hMem)

end Chars

namespace Text

theorem trim_trim (s : String) : trim (trim s) = trim s := by
  simp [trim, via, Chars.trim, Chars.trimWhile_trimWhile]

/-- Nothing is left of blanks alone. -/
theorem trim_eq_empty_iff {s : String} : trim s = "" ↔ isBlank s = true := by
  rw [← String.toList_inj, trim, toList_via, isBlank, List.all_eq_true]
  exact Chars.trimWhile_eq_nil_iff

end Text

/-! ## Section 2: What a text begins with -/

theorem Chars.stripPrefix?_eq_some_iff {w cs rest : List Char} :
    stripPrefix? w cs = some rest ↔ cs = w ++ rest := by
  induction w generalizing cs with
  | nil => simp [stripPrefix?]
  | cons y w ih =>
    cases cs with
    | nil => simp [stripPrefix?]
    | cons c cs =>
      by_cases hEq : y = c
      · simp [stripPrefix?, hEq, ih]
      · simp [stripPrefix?, hEq, Ne.symm hEq]

theorem Chars.stripSuffix?_eq_some_iff {w cs rest : List Char} :
    stripSuffix? w cs = some rest ↔ cs = rest ++ w := by
  unfold stripSuffix?
  constructor
  · intro hStrip
    obtain ⟨before, hBefore, rfl⟩ := Option.map_eq_some_iff.mp hStrip
    simpa using congrArg List.reverse (stripPrefix?_eq_some_iff.mp hBefore)
  · rintro rfl
    rw [List.reverse_append, stripPrefix?_eq_some_iff.mpr rfl]
    simp

theorem Chars.startsWith_iff {w cs : List Char} : startsWith w cs = true ↔ w <+: cs := by
  rw [startsWith, Option.isSome_iff_exists]
  exact exists_congr fun rest => stripPrefix?_eq_some_iff.trans eq_comm

namespace Text

variable {w s rest : String}

theorem startsWith_iff : startsWith w s = true ↔ w.toList <+: s.toList :=
  Chars.startsWith_iff

theorem stripPrefix?_eq_some_iff : stripPrefix? w s = some rest ↔ s = w ++ rest := by
  rw [stripPrefix?, Option.map_eq_some_iff, ← String.toList_inj, String.toList_append,
    ← Chars.stripPrefix?_eq_some_iff]
  constructor
  · rintro ⟨cs, hStrip, rfl⟩
    simpa using hStrip
  · exact fun hStrip => ⟨rest.toList, hStrip, by simp⟩

theorem stripSuffix?_eq_some_iff : stripSuffix? w s = some rest ↔ s = rest ++ w := by
  rw [stripSuffix?, Option.map_eq_some_iff, ← String.toList_inj, String.toList_append,
    ← Chars.stripSuffix?_eq_some_iff]
  constructor
  · rintro ⟨cs, hStrip, rfl⟩
    simpa using hStrip
  · exact fun hStrip => ⟨rest.toList, hStrip, by simp⟩

/-- A word stands at the start exactly where it can be taken off there. -/
theorem isSome_stripPrefix? : (stripPrefix? w s).isSome = startsWith w s := by
  simp [stripPrefix?, startsWith, Chars.startsWith]

/-- The text begins as a URL of the web does. -/
def BeginsAsUrl (s : String) : Prop :=
  "http://".toList <+: s.toList ∨ "https://".toList <+: s.toList

instance (s : String) : Decidable (BeginsAsUrl s) := inferInstanceAs (Decidable (_ ∨ _))

theorem startsWith_or_iff :
    (startsWith "http://" s || startsWith "https://" s) = true ↔ BeginsAsUrl s := by
  rw [Bool.or_eq_true, startsWith_iff, startsWith_iff, BeginsAsUrl]

end Text

end Bundleless
