import Bundleless.Proofs.Trimming

/-! # Cut texts

    A text is cut at the first or the last of certain characters, or at all
    of them. The pieces hold none of these characters, and what was cut is
    the pieces with such characters between them.
-/

namespace Bundleless.Chars

variable {p : Char → Bool} {c : Char} {cs : List Char}

/-! ## Section 1: One cut -/

theorem cutFirst?_append (xs ys : List Char) : cutFirst? p (xs ++ ys) =
    match cutFirst? p xs with
    | some (before, after) => some (before, after ++ ys)
    | none => (cutFirst? p ys).map fun (before, after) => (xs ++ before, after) := by
  induction xs with
  | nil => cases hCut : cutFirst? p ys <;> simp [cutFirst?, hCut]
  | cons x xs ih =>
    simp only [List.cons_append, cutFirst?, ih]
    cases hHead : p x with
    | true => rfl
    | false =>
      cases cutFirst? p xs with
      | some _ => rfl
      | none => cases hCut : cutFirst? p ys <;> simp

theorem cutFirst?_eq_none :
    cutFirst? p cs = none ↔ ∀ c ∈ cs, p c = false := by
  induction cs with
  | nil => simp [cutFirst?]
  | cons c cs ih => cases hHead : p c <;> simp [cutFirst?, hHead, ih]

theorem exists_of_cutFirst? {before after : List Char}
    (hCut : cutFirst? p cs = some (before, after)) :
    ∃ c, cs = before ++ c :: after ∧ p c = true ∧ ∀ x ∈ before, p x = false := by
  induction cs generalizing before with
  | nil => cases hCut
  | cons c cs ih =>
    unfold cutFirst? at hCut
    split at hCut
    · next hHead =>
      obtain ⟨rfl, rfl⟩ := Prod.mk.inj (Option.some.inj hCut)
      exact ⟨c, rfl, hHead, by simp⟩
    · next hHead =>
      obtain ⟨⟨start, rest⟩, hRest, hIs⟩ := Option.map_eq_some_iff.mp hCut
      obtain ⟨rfl, rfl⟩ := Prod.mk.inj hIs
      obtain ⟨d, rfl, hAt, hBefore⟩ := ih hRest
      exact ⟨d, rfl, hAt, List.forall_mem_cons.mpr ⟨Bool.eq_false_iff.mpr hHead, hBefore⟩⟩

theorem cutLast?_eq_none : cutLast? p cs = none ↔ ∀ c ∈ cs, p c = false := by
  simp [cutLast?, cutFirst?_eq_none]

theorem exists_of_cutLast? {before after : List Char}
    (hCut : cutLast? p cs = some (before, after)) :
    ∃ c, cs = before ++ c :: after ∧ p c = true ∧ ∀ x ∈ after, p x = false := by
  obtain ⟨⟨start, rest⟩, hReversed, hIs⟩ := Option.map_eq_some_iff.mp hCut
  obtain ⟨rfl, rfl⟩ := Prod.mk.inj hIs
  obtain ⟨c, hText, hAt, hNone⟩ := exists_of_cutFirst? hReversed
  refine ⟨c, ?_, hAt, fun x hMem => hNone x (List.mem_reverse.mp hMem)⟩
  simpa using congrArg List.reverse hText

/-- A text is cut at its last slash, or has none. -/
theorem cutLast?_slash (cs : List Char) :
    (cutLast? (· == '/') cs = none ∧ '/' ∉ cs) ∨
      ∃ before after, cutLast? (· == '/') cs = some (before, after) ∧
        cs = before ++ '/' :: after ∧ '/' ∉ after := by
  cases hCut : cutLast? (· == '/') cs with
  | none => exact Or.inl ⟨rfl, fun hMem => by simpa using cutLast?_eq_none.mp hCut '/' hMem⟩
  | some cut =>
    obtain ⟨before, after⟩ := cut
    obtain ⟨c, hText, hAt, hNone⟩ := exists_of_cutLast? hCut
    obtain rfl : c = '/' := by simpa using hAt
    exact Or.inr ⟨before, after, rfl, hText, fun hMem => by simpa using hNone '/' hMem⟩

/-! ## Section 2: All pieces -/

theorem splitAt_ne_nil (p : Char → Bool) (cs : List Char) : splitAt p cs ≠ [] := by
  cases cs with
  | nil => exact List.cons_ne_nil _ _
  | cons c cs =>
    unfold splitAt
    split
    · exact List.cons_ne_nil _ _
    · split <;> exact List.cons_ne_nil _ _

/-- No piece holds a character at which the text was cut. -/
theorem not_mem_splitAt {piece : List Char} (hPiece : piece ∈ splitAt p cs) :
    ∀ c ∈ piece, p c = false := by
  induction cs generalizing piece with
  | nil =>
    obtain rfl := List.mem_singleton.mp hPiece
    exact fun _ hMem => nomatch hMem
  | cons d cs ih =>
    unfold splitAt at hPiece
    split at hPiece
    · next hNil => exact absurd hNil (splitAt_ne_nil p cs)
    · next first rest hSplit =>
      split at hPiece
      · rcases List.mem_cons.mp hPiece with rfl | hMem
        · exact fun _ hMem => nomatch hMem
        · exact ih (hSplit ▸ hMem)
      · next hNot =>
        rcases List.mem_cons.mp hPiece with rfl | hMem
        · intro c hc
          rcases List.mem_cons.mp hc with rfl | hc
          · exact Bool.eq_false_iff.mpr hNot
          · exact ih (hSplit ▸ List.mem_cons_self) c hc
        · exact ih (hSplit ▸ List.mem_cons_of_mem _ hMem)

theorem splitAt_of_none (hNone : ∀ c ∈ cs, p c = false) : splitAt p cs = [cs] := by
  induction cs with
  | nil => rfl
  | cons c cs ih =>
    obtain ⟨hHead, hRest⟩ := List.forall_mem_cons.mp hNone
    simp [splitAt, ih hRest, hHead]

/-- The pieces of a text are those before and those after a separator. -/
theorem splitAt_append (hAt : p c = true) (xs ys : List Char) :
    splitAt p (xs ++ c :: ys) = splitAt p xs ++ splitAt p ys := by
  induction xs with
  | nil =>
    cases hRest : splitAt p ys with
    | nil => exact absurd hRest (splitAt_ne_nil p ys)
    | cons piece pieces => simp [splitAt, hRest, hAt]
  | cons x xs ih =>
    cases hPieces : splitAt p xs with
    | nil => exact absurd hPieces (splitAt_ne_nil p xs)
    | cons piece pieces =>
      simp only [List.cons_append, splitAt, ih, hPieces]
      split <;> rfl

/-- The pieces are parts of the text. -/
theorem subset_of_mem_splitAt {piece : List Char} (hPiece : piece ∈ splitAt p cs) : piece ⊆ cs := by
  induction cs generalizing piece with
  | nil =>
    obtain rfl := List.mem_singleton.mp hPiece
    exact List.Subset.refl _
  | cons d cs ih =>
    unfold splitAt at hPiece
    split at hPiece
    · next hNil => exact absurd hNil (splitAt_ne_nil p cs)
    · next first rest hSplit =>
      rw [hSplit] at ih
      split at hPiece
      · rcases List.mem_cons.mp hPiece with rfl | hMem
        · exact List.nil_subset _
        · exact List.subset_cons_of_subset _ (ih hMem)
      · rcases List.mem_cons.mp hPiece with rfl | hMem
        · exact List.cons_subset_cons _ (ih List.mem_cons_self)
        · exact List.subset_cons_of_subset _ (ih (List.mem_cons_of_mem _ hMem))

theorem splitAt_congr {q : Char → Bool} (hSame : ∀ c ∈ cs, p c = q c) :
    splitAt p cs = splitAt q cs := by
  induction cs with
  | nil => rfl
  | cons c cs ih =>
    obtain ⟨hHead, hRest⟩ := List.forall_mem_cons.mp hSame
    simp only [splitAt, ih hRest, hHead]

/-- Separators at the ends cut off empty pieces only. -/
theorem splitAt_trimWhile_subset (cs : List Char) : splitAt p (trimWhile p cs) ⊆ splitAt p cs := by
  have hStart : ∀ cs : List Char, splitAt p (cs.dropWhile p) ⊆ splitAt p cs := by
    intro cs
    induction cs with
    | nil => exact List.Subset.refl _
    | cons c cs ih =>
      by_cases hAt : p c = true
      · rw [List.dropWhile_cons_of_pos hAt]
        have hSplit : splitAt p (c :: cs) = [[]] ++ splitAt p cs := splitAt_append hAt [] cs
        rw [hSplit]
        exact List.subset_append_of_subset_right _ ih
      · rw [List.dropWhile_cons_of_neg hAt]
        exact List.Subset.refl _
  have hEnd : ∀ cs : List Char, splitAt p (dropEndWhile p cs) ⊆ splitAt p cs := by
    intro cs
    obtain ⟨rest, hText, hAll⟩ := exists_dropEndWhile_append (p := p) cs
    cases rest with
    | nil => rw [← List.append_nil (dropEndWhile p cs), ← hText]; exact List.Subset.refl _
    | cons c rest =>
      have hSplit : splitAt p cs = splitAt p (dropEndWhile p cs) ++ splitAt p rest := by
        conv => lhs; rw [hText]
        exact splitAt_append (hAll c List.mem_cons_self) _ _
      rw [hSplit]
      exact List.subset_append_left _ _
  exact List.Subset.trans (hEnd _) (hStart _)

/-- Pieces with a separator before each but the first are found again. -/
theorem splitAt_flatMap (hAt : p c = true) {piece : List Char} {pieces : List (List Char)}
    (hNone : ∀ piece' ∈ piece :: pieces, ∀ d ∈ piece', p d = false) :
    splitAt p (piece ++ pieces.flatMap (c :: ·)) = piece :: pieces := by
  induction pieces generalizing piece with
  | nil =>
    rw [List.flatMap_nil, List.append_nil]
    exact splitAt_of_none (hNone piece List.mem_cons_self)
  | cons next pieces ih =>
    obtain ⟨hPiece, hPieces⟩ := List.forall_mem_cons.mp hNone
    rw [List.flatMap_cons, List.cons_append, splitAt_append hAt, splitAt_of_none hPiece, ih hPieces]
    rfl

/-- **A text is its pieces with the separator between them.** -/
theorem flatMap_splitAt (c : Char) (cs : List Char) :
    (splitAt (· == c) cs).flatMap (c :: ·) = c :: cs := by
  induction cs with
  | nil => rfl
  | cons d cs ih =>
    unfold splitAt
    split
    · next hNil => exact absurd hNil (splitAt_ne_nil _ cs)
    · next first rest hSplit =>
      rw [hSplit] at ih
      split
      · next hIs =>
        obtain rfl := beq_iff_eq.mp hIs
        rw [List.flatMap_cons, ih]
        rfl
      · have hRest : first ++ rest.flatMap (c :: ·) = cs := (List.cons.inj ih).2
        simp only [List.flatMap_cons, List.cons_append]
        rw [hRest]

end Bundleless.Chars
