import Bundleless.Proofs.Cutting
import Bundleless.Proofs.Origin

/-! # The directory of the entry

    What the entry imports is seen from the directory of the entry, which is
    cut from its path in the configuration and then read against the page.
    The entry itself is read against the page as a whole. Both lead to the
    same directory, as the last segment of a path does not matter for what
    is resolved against it. But an entry directly under the root of the site
    has a directory without a name, and that one is seen from the page: the
    two agree only if the page is at the root too.
-/

namespace Bundleless

/-! ## Section 1: References and bases -/

namespace Url

/-- The reference begins with two slashes, and so with a host. -/
def namesHost : List Char → Bool
  | c :: d :: _ => isAnySlash c && isAnySlash d
  | _ => false

/-- The text is read as a reference without scheme and host, and nothing of it is left out. -/
structure IsReference (text : List Char) : Prop where
  whole : significant text = text
  noScheme : cutScheme? text = none
  noHost : namesHost text = false

/-- Something can be resolved against the URL, and it is one of the special kind, as those of the
    web. -/
structure IsBase (u : Url) : Prop where
  special : u.kind = .special
  hierarchical : u.isOpaque = false

end Url

/-! ## Section 2: Directories of URLs -/

namespace Url

variable {kind : Kind} {base u : Url}

/-- The directory of a path that is walked does not depend on its last segment, unless that leads
    up. -/
theorem tail_walk {last : List Char} (hNot : isDoubleDot last = false)
    (done segs : List (List Char)) :
    (walk kind done (segs ++ [last])).tail = (walk kind done (segs ++ [[]])).tail := by
  induction segs generalizing done with
  | nil =>
    have hUp : isDoubleDot [] = false := by decide
    have hHere : isSingleDot [] = false := by decide
    simp only [List.nil_append, walk, List.isEmpty_nil, hNot, hUp, hHere, Bool.false_eq_true,
      if_false, if_true]
    split <;> rfl
  | cons seg segs ih =>
    have hMore : ∀ last : List Char, (segs ++ [last]).isEmpty = false := by simp
    simp only [List.cons_append, walk, hMore, Bool.false_eq_true, if_false]
    split
    · exact ih _
    · split
      · exact ih _
      · exact ih _

/-- The directory of a URL, from its end. -/
def directory (u : Url) : List (List Char) := u.path.directory u.kind

theorem directory_pathFrom (hKind : kind ≠ .file) (done : List (List Char)) (text : List Char) :
    (pathFrom kind done text).directory kind =
      (walk kind done ((Chars.splitAt (isSlash kind) text).map (percentEncode pathSet))).tail := by
  unfold pathFrom Path.directory Path.reversed
  simp only [hKind, if_false, false_and, List.reverse_reverse]
  cases walk kind done ((Chars.splitAt (isSlash kind) text).map (percentEncode pathSet)) <;> rfl

/-- The path that a reference with such a path leads to. -/
def pathAt (base : Url) : List Char → Path
  | [] => base.path
  | c :: text =>
    if isAnySlash c then pathFrom base.kind [] text
    else pathFrom base.kind base.directory (c :: text)

/-- The path of a reference. -/
def pathPart (cs : List Char) : List Char := (cutBefore endsPath cs).1

/-- **A reference without scheme and host** leads to another path on the same site. -/
theorem relative_eq (base : Url) {cs : List Char} (hHost : namesHost cs = false) :
    ∃ u, relative base cs = .ok u ∧ u.scheme = base.scheme ∧ u.path = base.pathAt (pathPart cs) := by
  cases cs with
  | nil => exact ⟨_, rfl, rfl, rfl⟩
  | cons c rest =>
    by_cases hQuery : c = '?'
    · subst hQuery
      exact ⟨_, rfl, rfl, rfl⟩
    by_cases hFragment : c = '#'
    · subst hFragment
      exact ⟨_, rfl, rfl, rfl⟩
    have hPart : pathPart (c :: rest) = c :: pathPart rest := by
      simp [pathPart, cutBefore, endsPath, hQuery, hFragment]
    rw [hPart, pathAt]
    unfold relative
    split
    · next hIs => cases hIs
    · next hIs => exact absurd (List.cons.inj hIs).1 hQuery
    · next hIs => exact absurd (List.cons.inj hIs).1 hFragment
    · next hIs =>
      obtain ⟨rfl, rfl⟩ := List.cons.inj hIs
      split
      · next hSlash =>
        have hOne : rest.head?.any isAnySlash = false := by
          cases rest with
          | nil => rfl
          | cons d rest => simpa [namesHost, hSlash] using hHost
        rw [if_neg (by simp [hOne])]
        exact ⟨_, rfl, rfl, rfl⟩
      · exact ⟨_, rfl, rfl, by rw [← hPart]; rfl⟩

theorem IsReference.join {text : String} (hText : IsReference text.toList)
    (hOpaque : base.isOpaque = false) (hKind : base.kind = .special) :
    ∃ u, base.join text = .ok u ∧ u.scheme = base.scheme ∧
      u.path = base.pathAt (pathPart text.toList) := by
  have hRead : base.join text = relative base text.toList := by
    unfold Url.join readFrom
    dsimp only
    rw [hText.whole, hText.noScheme]
    dsimp only
    split
    · next f hIs =>
      rw [hIs]
      rfl
    · rw [if_neg (by simp [hOpaque]), if_neg (by simp [hKind])]
  rw [hRead]
  exact relative_eq base hText.noHost

theorem isOpaque_pathFrom {done : List (List Char)} {text : List Char}
    (hPath : u.path = pathFrom kind done text) : u.isOpaque = false := by
  unfold isOpaque
  rw [hPath]
  rfl

theorem isOpaque_pathAt {text : List Char} (hOpaque : base.isOpaque = false)
    (hPath : u.path = base.pathAt text) : u.isOpaque = false := by
  cases text with
  | nil =>
    unfold isOpaque at hOpaque ⊢
    rw [hPath]
    exact hOpaque
  | cons c text =>
    rw [pathAt] at hPath
    split at hPath
    · exact isOpaque_pathFrom hPath
    · exact isOpaque_pathFrom hPath

/-! ### The directory of a reference -/

/-- Neither slash is in the text. -/
theorem splitAt_file {file : List Char} (hSlash : '/' ∉ file) (hBackslash : '\\' ∉ file) :
    Chars.splitAt (isSlash kind) file = [file] :=
  Chars.splitAt_of_none fun _ hMem =>
    isSlash_eq_false (fun hEq => hSlash (hEq ▸ hMem)) fun hEq => hBackslash (hEq ▸ hMem)

/-- A file leads to the directory from which it is seen. -/
theorem directory_pathFrom_file (hKind : kind ≠ .file) (done : List (List Char)) {file : List Char}
    (hSlash : '/' ∉ file) (hBackslash : '\\' ∉ file)
    (hUp : isDoubleDot (percentEncode pathSet file) = false) :
    (pathFrom kind done file).directory kind = done := by
  have hOne : (walk kind done ([] ++ [percentEncode pathSet file])).tail =
      (walk kind done ([] ++ [[]])).tail := tail_walk hUp done []
  rw [directory_pathFrom hKind, splitAt_file hSlash hBackslash]
  exact hOne

/-- **A file in a directory leads to the directory.** -/
theorem directory_pathFrom_append (hKind : kind ≠ .file) (done : List (List Char))
    (dir : List Char) {file : List Char} (hSlash : '/' ∉ file) (hBackslash : '\\' ∉ file)
    (hUp : isDoubleDot (percentEncode pathSet file) = false) :
    (pathFrom kind done (dir ++ '/' :: file)).directory kind =
      (pathFrom kind done (dir ++ ['/'])).directory kind := by
  have hAt : isSlash kind '/' = true := rfl
  rw [directory_pathFrom hKind, directory_pathFrom hKind, Chars.splitAt_append hAt,
    Chars.splitAt_append hAt, splitAt_file hSlash hBackslash, List.map_append, List.map_append]
  exact tail_walk hUp done _

theorem directory_pathAt_append (hKind : base.kind ≠ .file) {dir file : List Char} (hDir : dir ≠ [])
    (hSlash : '/' ∉ file) (hBackslash : '\\' ∉ file)
    (hUp : isDoubleDot (percentEncode pathSet file) = false) :
    (base.pathAt (dir ++ '/' :: file)).directory base.kind =
      (base.pathAt (dir ++ ['/'])).directory base.kind := by
  cases dir with
  | nil => exact absurd rfl hDir
  | cons c dir =>
    simp only [List.cons_append, pathAt]
    split
    · exact directory_pathFrom_append hKind [] dir hSlash hBackslash hUp
    · exact directory_pathFrom_append hKind base.directory (c :: dir) hSlash hBackslash hUp

/-! ### The reference to the directory -/

theorem pathPart_append (dir file : List Char) :
    (pathPart (dir ++ '/' :: file) = dir ++ '/' :: pathPart file ∧
        pathPart (dir ++ ['/']) = dir ++ ['/']) ∨
      pathPart (dir ++ '/' :: file) = pathPart (dir ++ ['/']) := by
  simp only [pathPart, cutBefore, List.takeWhile_append]
  split
  · exact Or.inl ⟨by simp [endsPath], by simp [endsPath]⟩
  · exact Or.inr rfl

/-- What is read as a whole has no padding before it, and no line breaks. -/
theorem head_of_whole {text : List Char} (hWhole : significant text = text) :
    (∀ c ∈ text.head?, isPadding c = false) ∧ ∀ c ∈ text, isLineBreak c = false := by
  refine ⟨fun c hHead => ?_, fun c hMem => ?_⟩
  · cases text with
    | nil => cases hHead
    | cons d text =>
      obtain rfl : d = c := by simpa using hHead
      refine Bool.eq_false_iff.mpr fun hPadding => ?_
      -- Padding would be left out, and the text be shorter.
      have hLength := congrArg List.length hWhole
      have hShort : (significant (d :: text)).length ≤ text.length := by
        unfold significant Chars.trimWhile Chars.dropEndWhile
        refine Nat.le_trans (List.length_filter_le _ _) ?_
        rw [List.length_reverse, List.dropWhile_cons_of_pos hPadding]
        refine Nat.le_trans (List.dropWhile_sublist _).length_le ?_
        rw [List.length_reverse]
        exact (List.dropWhile_sublist _).length_le
      rw [hLength, List.length_cons] at hShort
      omega
  · rw [← hWhole] at hMem
    simpa using (List.mem_filter.mp hMem).2

/-- A scheme is a letter and what may follow it, up to a colon. -/
theorem cutScheme?_ne_none {cs : List Char} : cutScheme? cs ≠ none ↔
    ∃ c scheme rest, cs = c :: scheme ++ ':' :: rest ∧ c.isAlpha = true ∧
      ∀ d ∈ c :: scheme, isSchemeChar d = true := by
  constructor
  · intro hSome
    cases cs with
    | nil => exact absurd rfl hSome
    | cons c cs =>
      unfold cutScheme? at hSome
      dsimp only at hSome
      split at hSome
      · next hAlpha =>
        split at hSome
        · next scheme rest hCut =>
          obtain ⟨d, hText, hEnd, hBefore⟩ := Chars.exists_of_cutFirst? hCut
          have hBefore : ∀ x ∈ scheme, isSchemeChar x = true := fun x hx => by
            simpa using hBefore x hx
          split at hSome
          · next hColon =>
            obtain rfl : d = ':' := by simpa [hText] using hColon
            cases scheme with
            | nil =>
              -- The letter itself belongs to the scheme.
              obtain ⟨rfl, -⟩ := List.cons.inj hText
              cases hAlpha
            | cons x scheme =>
              obtain ⟨rfl, -⟩ := List.cons.inj hText
              exact ⟨c, scheme, rest, hText, hAlpha, hBefore⟩
          · exact absurd rfl hSome
        · exact absurd rfl hSome
      · exact absurd rfl hSome
  · rintro ⟨c, scheme, rest, rfl, hAlpha, hScheme⟩
    have hCut : Chars.cutFirst? (!isSchemeChar ·) (c :: scheme ++ ':' :: rest) =
        some (c :: scheme, rest) := by
      have hNone : Chars.cutFirst? (!isSchemeChar ·) (c :: scheme) = none :=
        Chars.cutFirst?_eq_none.mpr fun d hMem => by simp [hScheme d hMem]
      have hColon : isSchemeChar ':' = false := by decide
      rw [Chars.cutFirst?_append, hNone]
      simp [Chars.cutFirst?, hColon]
    rw [List.cons_append] at hCut ⊢
    simp [cutScheme?, hAlpha, hCut]

theorem cutScheme?_append {dir file : List Char}
    (hNone : cutScheme? (dir ++ '/' :: file) = none) : cutScheme? (dir ++ ['/']) = none := by
  refine Classical.byContradiction fun hSome => ?_
  obtain ⟨c, scheme, rest, hText, hAlpha, hScheme⟩ := cutScheme?_ne_none.mp hSome
  -- The colon stands before the slash, in the directory.
  rcases List.append_eq_append_iff.mp hText with ⟨more, hScheme', hRest⟩ | ⟨more, hDir, hRest⟩
  · cases more with
    | nil => simp at hRest
    | cons x more => simp at hRest
  · cases more with
    | nil => simp at hRest
    | cons x more =>
      obtain ⟨rfl, rfl⟩ := List.cons.inj hRest
      refine cutScheme?_ne_none.mpr ⟨c, scheme, more ++ '/' :: file, ?_, hAlpha, hScheme⟩ hNone
      rw [hDir]
      simp

/-- What is before the file of a reference, with the slash, is a reference too. -/
theorem IsReference.dir {dir file : List Char} (hText : IsReference (dir ++ '/' :: file))
    (hDir : dir ≠ []) : IsReference (dir ++ ['/']) where
  whole := by
    obtain ⟨hHead, hBreaks⟩ := head_of_whole hText.whole
    unfold significant
    rw [Chars.trimWhile_eq_self]
    · refine List.filter_eq_self.mpr fun c hMem => ?_
      have hNot : isLineBreak c = false := by
        refine hBreaks c (List.mem_append.mpr ((List.mem_append.mp hMem).imp_right fun hLast => ?_))
        exact List.mem_singleton.mp hLast ▸ List.mem_cons_self
      simp [hNot]
    · cases dir with
      | nil => exact absurd rfl hDir
      | cons c dir => simpa using hHead
    · intro c hLast
      obtain rfl : '/' = c := by simpa using hLast
      decide
  noScheme := cutScheme?_append hText.noScheme
  noHost := by
    have hHost := hText.noHost
    match dir, hDir with
    | [c], _ => exact hHost
    | c :: d :: dir, _ => exact hHost

theorem isReference_here : IsReference "./".toList := ⟨by decide, by decide, by decide⟩

/-- The reference to the directory of a URL leads there. -/
theorem directory_pathAt_here (hKind : base.kind = .special) :
    (base.pathAt (pathPart "./".toList)).directory base.kind = base.directory := by
  have hPart : pathPart "./".toList = ['.', '/'] := by decide
  have hSegs : (Chars.splitAt (isSlash .special) ['.', '/']).map (percentEncode pathSet) =
      [['.'], []] := by decide
  have hHere : isDoubleDot ['.'] = false ∧ isSingleDot ['.'] = true := by decide
  have hEnd : isDoubleDot [] = false ∧ isSingleDot [] = false := by decide
  rw [hPart]
  show (pathFrom base.kind base.directory ['.', '/']).directory base.kind = base.directory
  rw [hKind, directory_pathFrom (by decide), hSegs]
  simp [walk, hHere, hEnd]

/-- The last segment of a path. -/
def lastSegment (path : List Char) : List Char := (path.reverse.takeWhile (· != '/')).reverse

theorem lastSegment_append {dir file : List Char} (hFile : '/' ∉ file) :
    lastSegment (dir ++ '/' :: file) = file := by
  have hAll : ∀ c ∈ file.reverse, (c != '/') = true := fun c hMem =>
    bne_iff_ne.mpr fun hEq => hFile (hEq ▸ List.mem_reverse.mp hMem)
  unfold lastSegment
  rw [List.reverse_append, List.reverse_cons, List.append_assoc,
    List.takeWhile_append_of_pos hAll]
  simp

theorem lastSegment_of_not_mem {path : List Char} (hNone : '/' ∉ path) : lastSegment path = path := by
  have hAll : ∀ c ∈ path.reverse, (c != '/') = true := fun c hMem =>
    bne_iff_ne.mpr fun hEq => hNone (hEq ▸ List.mem_reverse.mp hMem)
  have hTake : (path.reverse ++ []).takeWhile (· != '/') = path.reverse ++ [].takeWhile (· != '/') :=
    List.takeWhile_append_of_pos hAll
  simpa [lastSegment] using congrArg List.reverse hTake

/-! ### What is resolved against a directory -/

theorem IsReference.isBase {text : String} (hText : IsReference text.toList) (hBase : base.IsBase) :
    ∃ u, base.join text = .ok u ∧ u.IsBase ∧
      u.directory = (base.pathAt (pathPart text.toList)).directory base.kind := by
  obtain ⟨u, hJoin, hScheme, hPath⟩ := hText.join hBase.hierarchical hBase.special
  have hKind : u.kind = base.kind := congrArg Kind.of hScheme
  refine ⟨u, hJoin, ⟨hKind.trans hBase.special, isOpaque_pathAt hBase.hierarchical hPath⟩, ?_⟩
  rw [directory, hPath, hKind]

/-- **A relative reference is resolved against the directory alone.** -/
theorem IsBase.join_relative (hBase : u.IsBase) {text rest : List Char} {s : String}
    (hChars : s.toList = '.' :: rest) (hText : significant s.toList = text) :
    ∃ v, u.join s = .ok v ∧ v.path = pathFrom .special u.directory (pathPart text) := by
  obtain ⟨more, hMore⟩ := significant_cons (by decide : isVisible '.' = true) rest
  obtain rfl : '.' :: more = text := by rw [← hText, hChars, hMore]
  have hRead : u.join s = relative u ('.' :: more) := by
    unfold Url.join
    rw [readFrom_of_local hText (Or.inl rfl), if_neg (by simp [hBase.hierarchical]),
      if_neg (by simp [hBase.special])]
  have hHost : namesHost ('.' :: more) = false := by cases more <;> rfl
  obtain ⟨v, hJoin, -, hPath⟩ := relative_eq u hHost
  refine ⟨v, hRead.trans hJoin, ?_⟩
  have hPart : pathPart ('.' :: more) = '.' :: pathPart more := by
    simp [pathPart, cutBefore, endsPath]
  have hDot : isAnySlash '.' = false := by decide
  rw [hPath, hPart, pathAt, hDot, ← hBase.special]
  rfl

/-- Empty segments at the root, which stand last here, are kept apart from the others, whatever is
    walked; what is found at the others does not depend on them. -/
theorem goUp_padded (done : List (List Char)) (n m : Nat) : ∃ done' n' m',
    goUp (done ++ List.replicate n []) = done' ++ List.replicate n' [] ∧
      goUp (done ++ List.replicate m []) = done' ++ List.replicate m' [] := by
  cases done with
  | nil =>
    have hUp : ∀ n, goUp (List.replicate n []) = List.replicate (n - 1) [] := by
      intro n
      cases n <;> rfl
    exact ⟨[], n - 1, m - 1, hUp n, hUp m⟩
  | cons seg done =>
    simp only [List.cons_append, goUp]
    split
    · exact ⟨seg :: done, n, m, rfl, rfl⟩
    · exact ⟨done, n, m, rfl, rfl⟩

theorem walk_padded (segs done : List (List Char)) (n m : Nat) : ∃ done' n' m',
    walk .special (done ++ List.replicate n []) segs = done' ++ List.replicate n' [] ∧
      walk .special (done ++ List.replicate m []) segs = done' ++ List.replicate m' [] := by
  induction segs generalizing done n m with
  | nil => exact ⟨done, n, m, rfl, rfl⟩
  | cons seg segs ih =>
    have hPush : ∀ (seg : List Char) (done : List (List Char)) (n m : Nat), ∃ done' n' m',
        walk .special (seg :: (done ++ List.replicate n [])) segs = done' ++ List.replicate n' [] ∧
          walk .special (seg :: (done ++ List.replicate m [])) segs =
            done' ++ List.replicate m' [] := fun seg done n m => ih (seg :: done) n m
    obtain ⟨up, n', m', hUp, hUp'⟩ := goUp_padded done n m
    unfold walk
    dsimp only
    rw [hUp, hUp']
    split
    · split
      · exact hPush [] up n' m'
      · exact ih up n' m'
    · split
      · split
        · exact hPush [] done n m
        · exact ih done n m
      · -- Only a file has drives.
        simp only [reduceCtorEq, false_and, if_false]
        split
        · exact hPush _ done n m
        · exact hPush _ done n m

/-- Empty segments at the root leave no trace once the slashes at the ends are trimmed. -/
theorem trimmed_padded (done : List (List Char)) (n : Nat) :
    Chars.trimWhile (· == '/') (Path.segments (done ++ List.replicate n []).reverse).chars =
      Chars.trimWhile (· == '/') (Path.segments done.reverse).chars := by
  have hSlashes : ∀ c ∈ (List.replicate n ([] : List Char)).flatMap ('/' :: ·),
      (c == '/') = true := by
    intro c hMem
    obtain ⟨seg, hSeg, hMem⟩ := List.mem_flatMap.mp hMem
    obtain rfl := List.eq_of_mem_replicate hSeg
    exact beq_iff_eq.mpr (List.mem_singleton.mp hMem)
  rw [List.reverse_append, List.reverse_replicate]
  show Chars.trimWhile _ ((List.replicate n [] ++ done.reverse).flatMap ('/' :: ·)) = _
  rw [List.flatMap_append, Chars.trimWhile_append hSlashes]
  rfl

/-- **From a directory of empty segments the same is reached as from the root.** -/
theorem trimmed_pathFrom_root {done : List (List Char)} (hEmpty : ∀ seg ∈ done, seg = [])
    (text : List Char) :
    Chars.trimWhile (· == '/') (pathFrom .special done text).chars =
      Chars.trimWhile (· == '/') (pathFrom .special [] text).chars := by
  obtain ⟨done', n, m, hWalk, hWalk'⟩ := walk_padded
    ((Chars.splitAt (isSlash .special) text).map (percentEncode pathSet)) [] done.length 0
  have hDone : done = [] ++ List.replicate done.length [] := List.eq_replicate_of_mem hEmpty
  have hPath : pathFrom .special done text =
      .segments (done' ++ List.replicate n []).reverse := by
    rw [← hWalk, ← hDone]
    rfl
  have hRoot : pathFrom .special [] text = .segments (done' ++ List.replicate m []).reverse := by
    rw [← hWalk']
    rfl
  rw [hPath, hRoot, trimmed_padded, trimmed_padded]

/-- A file beside the base is reached in its directory. -/
theorem pathFrom_beside (done : List (List Char)) :
    pathFrom .special done "./x".toList = .segments (done.reverse ++ [['x']]) := by
  have hSplit : (Chars.splitAt (isSlash .special) "./x".toList).map (percentEncode pathSet) =
      [['.'], ['x']] := by decide
  have hHere : isDoubleDot ['.'] = false ∧ isSingleDot ['.'] = true := by decide
  have hName : isDoubleDot ['x'] = false ∧ isSingleDot ['x'] = false := by decide
  unfold pathFrom
  rw [hSplit]
  simp [walk, hHere, hName]

/-- **From any other directory something else is reached.** -/
theorem empty_of_trimmed {done : List (List Char)} (hSegs : AreSegments .special done)
    (hSame : Chars.trimWhile (· == '/') (pathFrom .special [] "./x".toList).chars =
      Chars.trimWhile (· == '/') (pathFrom .special done "./x".toList).chars) :
    ∀ seg ∈ done, seg = [] := by
  -- Only the characters that are no slashes are counted; the directory may add none.
  let isOther : Char → Bool := fun c => !(c == '/')
  have hCount : (pathFrom .special [] "./x".toList).chars.filter isOther =
      (pathFrom .special done "./x".toList).chars.filter isOther :=
    (Chars.filter_trimWhile _).symm.trans
      ((congrArg (List.filter isOther) hSame).trans (Chars.filter_trimWhile _))
  rw [pathFrom_beside, pathFrom_beside] at hCount
  have hNone : (done.reverse.flatMap ('/' :: ·)).filter isOther = [] := by
    have hSplit : (Path.segments (done.reverse ++ [['x']])).chars =
        done.reverse.flatMap ('/' :: ·) ++ ['/', 'x'] := by simp [Path.chars]
    have hLength := congrArg List.length hCount
    rw [hSplit, List.filter_append, List.length_append] at hLength
    refine List.length_eq_zero_iff.mp ?_
    have hOne : ((Path.segments (([] : List (List Char)).reverse ++ [['x']])).chars.filter
        isOther).length = 1 := by decide
    have hLast : (['/', 'x'].filter isOther).length = 1 := by decide
    omega
  intro seg hMem
  cases seg with
  | nil => rfl
  | cons c seg =>
    have hNot : c ≠ '/' := by
      rintro rfl
      cases (hSegs _ hMem '/' List.mem_cons_self).2
    have hFound : c ∈ (done.reverse.flatMap ('/' :: ·)).filter isOther := by
      refine List.mem_filter.mpr ⟨List.mem_flatMap.mpr ⟨c :: seg, List.mem_reverse.mpr hMem, ?_⟩, ?_⟩
      · exact List.mem_cons_of_mem _ List.mem_cons_self
      · simp [isOther, hNot]
    rw [hNone] at hFound
    cases hFound

/-- A file alone is seen from the directory of the base. -/
theorem directory_pathAt_file (hKind : base.kind ≠ .file) {file : List Char} (hSlash : '/' ∉ file)
    (hBackslash : '\\' ∉ file) (hUp : isDoubleDot (percentEncode pathSet file) = false) :
    (base.pathAt file).directory base.kind = base.directory := by
  cases file with
  | nil => rfl
  | cons c file =>
    have hNot : isAnySlash c = false := by
      have hNe : c ≠ '/' ∧ c ≠ '\\' :=
        ⟨fun hEq => hSlash (hEq ▸ List.mem_cons_self), fun hEq => hBackslash (hEq ▸ List.mem_cons_self)⟩
      simp [isAnySlash, hNe]
    rw [pathAt, hNot]
    exact directory_pathFrom_file hKind _ hSlash hBackslash hUp

theorem not_mem_pathPart {c : Char} {text : List Char} (hNot : c ∉ text) : c ∉ pathPart text :=
  fun hMem => hNot (List.takeWhile_subset _ hMem)

end Url

/-! ## Section 3: The entry -/

namespace LocalPath

variable {specifier dir : String} {page : Page}

/-- The specifier is relative to the directory that it is seen from. -/
def isRelative (specifier : String) : Bool :=
  Text.startsWith "./" specifier || Text.startsWith "../" specifier

theorem exists_of_isRelative (hRelative : isRelative specifier = true) :
    ∃ rest, specifier.toList = '.' :: rest := by
  cases hChars : specifier.toList with
  | nil =>
    simp [isRelative, Text.startsWith, Chars.startsWith, Chars.stripPrefix?, hChars] at hRelative
  | cons c rest =>
    by_cases hDot : c = '.'
    · exact ⟨rest, hDot ▸ rfl⟩
    · simp [isRelative, Text.startsWith, Chars.startsWith, Chars.stripPrefix?, hChars,
        Ne.symm hDot] at hRelative

theorem resolve_of_join {base u : Url} (hBase : page.join (dirReference dir) = .ok base)
    (hJoin : base.join specifier = .ok u) : resolve specifier dir page = .ok (trimDir u.pathText) := by
  unfold resolve
  rw [hBase]
  simp only [bind, Except.bind, hJoin, pure, Except.pure]

/-- What a specifier means, seen from a directory and from a URL, is told by their directories. -/
theorem resolves_iff {u base : Url} (hU : u.IsBase) (hBase : base.IsBase)
    (hDir : page.join (dirReference dir) = .ok base) (hRelative : isRelative specifier = true) :
    (∃ v, u.join specifier = .ok v ∧ resolve specifier dir page = .ok (trimDir v.pathText)) ↔
      Chars.trimWhile (· == '/') (Url.pathFrom .special u.directory
          (Url.pathPart (Url.significant specifier.toList))).chars =
        Chars.trimWhile (· == '/') (Url.pathFrom .special base.directory
          (Url.pathPart (Url.significant specifier.toList))).chars := by
  obtain ⟨rest, hChars⟩ := exists_of_isRelative hRelative
  obtain ⟨v, hJoin, hPath⟩ := hU.join_relative hChars rfl
  obtain ⟨v', hDirJoin, hDirPath⟩ := hBase.join_relative hChars rfl
  have hTrim : ∀ v : Url, (trimDir v.pathText).toList = Chars.trimWhile (· == '/') v.path.chars := by
    intro v
    simp [trimDir, Text.trimSlashes, Url.pathText]
  rw [← hPath, ← hDirPath, ← hTrim, ← hTrim, String.toList_inj]
  have hResolve := resolve_of_join hDir hDirJoin
  constructor
  · rintro ⟨v₁, hThen, hAgree⟩
    obtain rfl := Except.ok.inj (hJoin.symm.trans hThen)
    exact Except.ok.inj (hAgree.symm.trans hResolve)
  · intro hSame
    exact ⟨v, hJoin, hSame ▸ hResolve⟩

theorem ofList_ne_empty {cs : List Char} (hSome : cs ≠ []) : String.ofList cs ≠ "" := fun hEmpty =>
  hSome (by simpa using congrArg String.toList hEmpty)

theorem startsWith_ofList (c : Char) (cs : List Char) :
    Text.startsWith "/" (String.ofList (c :: cs)) = (c == '/') := by
  by_cases hSlash : c = '/'
  · simp [Text.startsWith, Chars.startsWith, Chars.stripPrefix?, hSlash]
  · simp [Text.startsWith, Chars.startsWith, Chars.stripPrefix?, hSlash, Ne.symm hSlash]

/-- A directory with a name is referred to by the name, with a slash after it. -/
theorem dirReference_ofList {dir : List Char} (hDir : dir ≠ [])
    (hHost : Url.namesHost (dir ++ ['/']) = false) (hLast : dir.getLast? ≠ some '/') :
    dirReference (String.ofList dir) = String.ofList (dir ++ ['/']) := by
  have hEnd : ∀ c ∈ dir.getLast?, (c == '/') = false := fun c hMem =>
    beq_eq_false_iff_ne.mpr fun hEq => hLast (hEq ▸ hMem)
  have hTrim : trimDir (String.ofList dir) = String.ofList (Chars.trimWhile (· == '/') dir) := by
    simp [trimDir, Text.trimSlashes, Text.via]
  unfold dirReference
  rw [hTrim]
  cases dir with
  | nil => exact absurd rfl hDir
  | cons c dir =>
    rw [startsWith_ofList]
    by_cases hSlash : c = '/'
    · -- The slash before it is trimmed off, and put back.
      subst hSlash
      cases dir with
      | nil => exact absurd rfl hLast
      | cons d dir =>
        have hHead : d ≠ '/' := by
          rintro rfl
          cases hHost
        have hName : Chars.trimWhile (· == '/') ('/' :: d :: dir) = d :: dir := by
          have hFirst : ∀ c ∈ ['/'], (c == '/') = true := by simp
          refine (Chars.trimWhile_append hFirst (d :: dir)).trans ?_
          exact Chars.trimWhile_eq_self (by simpa using hHead) (by simpa using hEnd)
        dsimp only
        rw [hName, if_pos (by decide), if_neg (ofList_ne_empty (List.cons_ne_nil d dir))]
        exact String.toList_inj.mp (by simp)
    · have hName : Chars.trimWhile (· == '/') (c :: dir) = c :: dir :=
        Chars.trimWhile_eq_self (by simpa using hSlash) hEnd
      dsimp only
      rw [hName, if_neg (by simpa using hSlash), if_neg (ofList_ne_empty hDir)]
      exact String.toList_inj.mp (by simp)

end LocalPath

/-- The page is directly under the root of its site, but for empty segments. -/
def Page.IsAtRoot (page : Page) : Prop := ∀ seg ∈ page.location.directory, seg = []

namespace Config

variable {c : Config} {page : Page}

/-- The entry is a path as it stands. -/
structure HasPlainEntry (c : Config) : Prop where
  /-- It is read as a whole, and names neither a scheme nor a host. -/
  reference : Url.IsReference c.entry.toList
  /-- Its last segment has no backslash, which would be read as a slash. -/
  noBackslash : '\\' ∉ Url.lastSegment (Url.pathPart c.entry.toList)
  /-- Its last segment does not lead up. -/
  noUp : Url.isDoubleDot
    (Url.percentEncode Url.pathSet (Url.lastSegment (Url.pathPart c.entry.toList))) = false
  /-- The segment before its last one is not empty. -/
  noEmpty : c.entryDir.toList.getLast? ≠ some '/'

/-- The entry is directly under the root of the site. -/
def EntersAtRoot (c : Config) : Prop := Text.startsWith "/" c.entry = true ∧ c.entryDir = ""

/-- The specifier means, seen from the directory of the entry, what is reached by it from the URL at
    which the entry is fetched. -/
def ResolvesFromEntry (c : Config) (page : Page) (specifier : String) : Prop :=
  ∃ u v, page.join c.entry = .ok u ∧ u.join specifier = .ok v ∧
    LocalPath.resolve specifier c.entryDir page = .ok (LocalPath.trimDir v.pathText)

/-- Where the entry is, and where its directory is said to be: at the root and at the page, if the
    entry is directly under the root, and in the same directory otherwise. -/
structure Places (c : Config) (page : Page) (u base : Url) : Prop where
  entry : page.join c.entry = .ok u
  dir : page.join (LocalPath.dirReference c.entryDir) = .ok base
  isBase : u.IsBase ∧ base.IsBase
  atRoot : c.EntersAtRoot → u.directory = [] ∧ base.directory = page.location.directory
  elsewhere : ¬ c.EntersAtRoot → u.directory = base.directory

theorem entersAtRoot_iff : c.EntersAtRoot ↔
    ∃ file, c.entry.toList = '/' :: file ∧ '/' ∉ file := by
  have hStarts : Text.startsWith "/" c.entry = true ↔ ∃ rest, c.entry.toList = '/' :: rest := by
    rw [← String.ofList_toList (s := c.entry)]
    cases hChars : c.entry.toList with
    | nil => simp [Text.startsWith, Chars.startsWith, Chars.stripPrefix?]
    | cons d rest =>
      rw [LocalPath.startsWith_ofList]
      simp
  unfold EntersAtRoot entryDir
  rw [hStarts]
  rcases Chars.cutLast?_slash c.entry.toList with ⟨hCut, hNone⟩ | ⟨dir, file, hCut, hText, hFile⟩
  · rw [hCut]
    constructor
    · rintro ⟨⟨rest, hText⟩, -⟩
      exact absurd (hText ▸ List.mem_cons_self) hNone
    · rintro ⟨rest, hText, -⟩
      exact absurd (hText ▸ List.mem_cons_self) hNone
  · rw [hCut]
    dsimp only
    constructor
    · rintro ⟨-, hEmpty⟩
      obtain rfl : dir = [] := by simpa using congrArg String.toList hEmpty
      exact ⟨file, hText, hFile⟩
    · rintro ⟨rest, hRest, hNot⟩
      cases dir with
      | nil => exact ⟨⟨file, hText⟩, rfl⟩
      | cons d dir =>
        -- There would be a second slash.
        obtain ⟨-, rfl⟩ := List.cons.inj (hRest.symm.trans hText)
        simp at hNot

section Directory

variable {dir file : List Char} {base : Url}

/-- Without a slash the entry is beside the page. -/
theorem HasPlainEntry.directory_beside (hEntry : c.HasPlainEntry) (hKind : base.kind ≠ .file)
    (hNone : '/' ∉ c.entry.toList) :
    (base.pathAt (Url.pathPart c.entry.toList)).directory base.kind = base.directory := by
  have hPath := Url.not_mem_pathPart hNone
  have hBackslash := hEntry.noBackslash
  have hUp := hEntry.noUp
  rw [Url.lastSegment_of_not_mem hPath] at hBackslash hUp
  exact Url.directory_pathAt_file hKind hPath hBackslash hUp

/-- With one slash, before it, the entry is at the root. -/
theorem HasPlainEntry.directory_at_root (hEntry : c.HasPlainEntry) (hKind : base.kind ≠ .file)
    (hText : c.entry.toList = '/' :: file) (hFile : '/' ∉ file) :
    (base.pathAt (Url.pathPart c.entry.toList)).directory base.kind = [] := by
  have hPath : Url.pathPart ('/' :: file) = [] ++ '/' :: Url.pathPart file := by
    simp [Url.pathPart, Url.cutBefore, Url.endsPath]
  have hPathFile := Url.not_mem_pathPart hFile
  have hBackslash := hEntry.noBackslash
  have hUp := hEntry.noUp
  rw [hText, hPath, Url.lastSegment_append hPathFile] at hBackslash hUp
  rw [hText, hPath]
  exact Url.directory_pathFrom_file hKind [] hPathFile hBackslash hUp

/-- Otherwise it is in the directory that what is before its last slash refers to. -/
theorem HasPlainEntry.directory_below (hEntry : c.HasPlainEntry) (hKind : base.kind ≠ .file)
    (hText : c.entry.toList = dir ++ '/' :: file) (hFile : '/' ∉ file) (hDir : dir ≠ []) :
    (base.pathAt (Url.pathPart c.entry.toList)).directory base.kind =
      (base.pathAt (Url.pathPart (dir ++ ['/']))).directory base.kind := by
  have hPathFile := Url.not_mem_pathPart hFile
  have hBackslash := hEntry.noBackslash
  have hUp := hEntry.noUp
  rw [hText] at hBackslash hUp ⊢
  rcases Url.pathPart_append dir file with ⟨hPath, hPathDir⟩ | hPath
  · rw [hPath, Url.lastSegment_append hPathFile] at hBackslash hUp
    rw [hPath, hPathDir]
    exact Url.directory_pathAt_append hKind hDir hPathFile hBackslash hUp
  -- The last slash is in the query or in the fragment.
  · rw [hPath]

end Directory

theorem HasPlainEntry.exists_places (hEntry : c.HasPlainEntry) (hBase : page.location.IsBase) :
    ∃ u base, c.Places page u base := by
  have hKind : page.location.kind ≠ .file := by simp [hBase.special]
  obtain ⟨u, hJoin, hIsBase, hDirectory⟩ := hEntry.reference.isBase hBase
  have hPlace := Page.join_eq_ok_iff.mpr hJoin
  -- A directory without a name is the one of the page.
  have hHere : c.entryDir = "" → ∃ base, page.join (LocalPath.dirReference c.entryDir) = .ok base ∧
      base.IsBase ∧ base.directory = page.location.directory := by
    intro hNone
    obtain ⟨base, hJoin, hIsBase, hDirectory⟩ := Url.isReference_here.isBase hBase
    rw [Url.directory_pathAt_here hBase.special] at hDirectory
    rw [hNone]
    exact ⟨base, Page.join_eq_ok_iff.mpr hJoin, hIsBase, hDirectory⟩
  rcases Chars.cutLast?_slash c.entry.toList with ⟨hCut, hNone⟩ | ⟨dir, file, hCut, hText, hFile⟩
  · obtain ⟨base, hDir, hDirBase, hPage⟩ := hHere (by simp [entryDir, hCut])
    rw [hEntry.directory_beside hKind hNone] at hDirectory
    refine ⟨u, base, hPlace, hDir, ⟨hIsBase, hDirBase⟩, fun hRoot => ?_, fun _ => ?_⟩
    · obtain ⟨rest, hText, -⟩ := entersAtRoot_iff.mp hRoot
      exact absurd (hText ▸ List.mem_cons_self) hNone
    · rw [hDirectory, hPage]
  · have hName : c.entryDir = String.ofList dir := by simp [entryDir, hCut]
    by_cases hNone : dir = []
    · subst hNone
      obtain ⟨base, hDir, hDirBase, hPage⟩ := hHere hName
      rw [hEntry.directory_at_root hKind hText hFile] at hDirectory
      exact ⟨u, base, hPlace, hDir, ⟨hIsBase, hDirBase⟩, fun _ => ⟨hDirectory, hPage⟩,
        fun hNot => absurd (entersAtRoot_iff.mpr ⟨file, hText, hFile⟩) hNot⟩
    · have hReference : Url.IsReference (String.ofList (dir ++ ['/'])).toList := by
        rw [String.toList_ofList]
        exact (hText ▸ hEntry.reference).dir hNone
      have hDirReference : LocalPath.dirReference c.entryDir = String.ofList (dir ++ ['/']) := by
        have hLast := hEntry.noEmpty
        rw [hName, String.toList_ofList] at hLast
        rw [hName]
        exact LocalPath.dirReference_ofList hNone
          (by simpa using hReference.noHost) hLast
      obtain ⟨base, hDirJoin, hDirBase, hSame⟩ := hReference.isBase hBase
      rw [hEntry.directory_below hKind hText hFile hNone] at hDirectory
      rw [String.toList_ofList] at hSame
      exact ⟨u, base, hPlace, hDirReference ▸ Page.join_eq_ok_iff.mpr hDirJoin, ⟨hIsBase, hDirBase⟩,
        fun hRoot => absurd (hName.symm.trans hRoot.2) (LocalPath.ofList_ne_empty hNone),
        fun _ => hDirectory.trans hSame.symm⟩

/-- What a specifier means is told by the two directories. -/
theorem Places.resolves_iff {u base : Url} (hPlaces : c.Places page u base) {specifier : String}
    (hRelative : LocalPath.isRelative specifier = true) :
    c.ResolvesFromEntry page specifier ↔
      Chars.trimWhile (· == '/') (Url.pathFrom .special u.directory
          (Url.pathPart (Url.significant specifier.toList))).chars =
        Chars.trimWhile (· == '/') (Url.pathFrom .special base.directory
          (Url.pathPart (Url.significant specifier.toList))).chars := by
  rw [← LocalPath.resolves_iff hPlaces.isBase.1 hPlaces.isBase.2 hPlaces.dir hRelative]
  constructor
  · rintro ⟨u₁, v, hEntry, hThen, hAgree⟩
    obtain rfl := Except.ok.inj (hPlaces.entry.symm.trans hEntry)
    exact ⟨v, hThen, hAgree⟩
  · rintro ⟨v, hThen, hAgree⟩
    exact ⟨u, v, hPlaces.entry, hThen, hAgree⟩

/-- **Relative imports of the entry mean what they mean where the entry was fetched**, exactly unless
    the entry is directly under the root of the site and the page is not. -/
theorem resolves_from_entry_iff {href : String} (hPage : Url.parse href = .ok page.location)
    (hHttp : page.location.IsHttp) (hEntry : c.HasPlainEntry) :
    (∀ specifier, LocalPath.isRelative specifier = true → c.ResolvesFromEntry page specifier) ↔
      (c.EntersAtRoot → page.IsAtRoot) := by
  have hClean : page.location.IsClean :=
    (Url.isRead_of_parse hPage).isClean_of_kind (by simp [hHttp.kind])
  have hBase : page.location.IsBase := ⟨hHttp.kind, hClean.isOpaque⟩
  obtain ⟨u, base, hPlaces⟩ := hEntry.exists_places hBase
  constructor
  · intro hAll hRoot
    obtain ⟨hTop, hSeen⟩ := hPlaces.atRoot hRoot
    have hRelative : LocalPath.isRelative "./x" = true := by decide
    have hAgree := (hPlaces.resolves_iff hRelative).mp (hAll "./x" hRelative)
    have hText : Url.pathPart (Url.significant "./x".toList) = "./x".toList := by decide
    have hSegs : Url.AreSegments .special page.location.directory := by
      have hDirectory := Url.Path.IsClean.directory hClean page.location.kind
      unfold Url.directory
      rwa [hHttp.kind] at hDirectory ⊢
    rw [hText, hTop, hSeen] at hAgree
    exact Url.empty_of_trimmed hSegs hAgree
  · intro hUnless specifier hRelative
    rw [hPlaces.resolves_iff hRelative]
    by_cases hRoot : c.EntersAtRoot
    · obtain ⟨hTop, hSeen⟩ := hPlaces.atRoot hRoot
      rw [hTop, hSeen]
      exact (Url.trimmed_pathFrom_root (hUnless hRoot) _).symm
    · rw [hPlaces.elsewhere hRoot]

/-- An entry in a directory, on a page that is not at the root. -/
theorem resolves_from_entry_src :
    Url.parse "https://e.test/app/index.html" =
        .ok (Replay.pageAt ["app", "index.html"]).location ∧
      (Replay.pageAt ["app", "index.html"]).location.IsHttp ∧
      HasPlainEntry { entry := "src/main.tsx" } ∧
      ∀ specifier, LocalPath.isRelative specifier = true →
        ResolvesFromEntry { entry := "src/main.tsx" } (Replay.pageAt ["app", "index.html"])
          specifier := by
  have hPage : Url.parse "https://e.test/app/index.html" =
      .ok (Replay.pageAt ["app", "index.html"]).location := eq_ok_of_toOption (by decide)
  have hHttp : (Replay.pageAt ["app", "index.html"]).location.IsHttp := Or.inr rfl
  have hEntry : HasPlainEntry { entry := "src/main.tsx" } :=
    ⟨⟨by decide, by decide +kernel, by decide +kernel⟩, by decide +kernel,
      by decide, by decide +kernel⟩
  refine ⟨hPage, hHttp, hEntry, (resolves_from_entry_iff hPage hHttp hEntry).mpr fun hRoot => ?_⟩
  exact absurd hRoot.2 (by decide)

/-- An entry directly under the root imports beside itself what is looked for beside the page. -/
theorem not_resolves_from_entry : ¬ ∀ specifier, LocalPath.isRelative specifier = true →
    ResolvesFromEntry { entry := "/main.tsx" } (Replay.pageAt ["app", "index.html"]) specifier := by
  intro hAll
  obtain ⟨u, v, hEntry, hJoin, hResolve⟩ := hAll "./theme.ts" (by decide)
  have hAt : (Replay.pageAt ["app", "index.html"]).join "/main.tsx" =
      .ok (Replay.pageAt ["main.tsx"]).location := eq_ok_of_toOption (by decide)
  obtain rfl := Except.ok.inj (hAt.symm.trans hEntry)
  have hThere : (Replay.pageAt ["main.tsx"]).location.join "./theme.ts" =
      .ok (Replay.pageAt ["theme.ts"]).location := eq_ok_of_toOption (by decide)
  obtain rfl := Except.ok.inj (hThere.symm.trans hJoin)
  have hSeen : LocalPath.resolve "./theme.ts" (Config.entryDir { entry := "/main.tsx" })
      (Replay.pageAt ["app", "index.html"]) = .ok "app/theme.ts" :=
    eq_ok_of_toOption (by decide)
  exact absurd (Except.ok.inj (hSeen.symm.trans hResolve)) (by decide)

end Config

end Bundleless
