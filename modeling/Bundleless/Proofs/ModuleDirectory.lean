import Bundleless.Proofs.Calls
import Bundleless.Proofs.EntryDirectory
import Bundleless.Proofs.SharedKeys

/-! # The directory of a module

    A module is fetched at its path, read from the root of the site, and what
    it imports is seen from the directory of its path, read from the root of
    the site too. Paths are cut from URLs, so that nothing in them is encoded
    anew or walked along when they are read once more: both directories are
    what stands in the path. But the slashes at the end of a directory are
    trimmed before it is read. Where an empty segment stands before the last
    one, the imports are therefore looked for in a directory without it.
-/

namespace Bundleless

/-! ## Section 1: Segments that are read as they are written -/

namespace Url

variable {kind : Kind} {base u : Url} {text dir file : List Char}

/-- Nothing in the segment is encoded, it is not cut, and it is not walked along. -/
structure IsNormal (kind : Kind) (seg : List Char) : Prop where
  plain : ∀ c ∈ seg, pathSet c = false ∧ c.toNat < 0x7F
  uncut : ∀ c ∈ seg, isSlash kind c = false
  noUp : isDoubleDot seg = false
  noHere : isSingleDot seg = false

theorem isNormal_nil (kind : Kind) : IsNormal kind [] := ⟨by simp, by simp, by decide, by decide⟩

theorem percentEncode_eq_self {cs : List Char}
    (hPlain : ∀ c ∈ cs, pathSet c = false ∧ c.toNat < 0x7F) : percentEncode pathSet cs = cs := by
  induction cs with
  | nil => rfl
  | cons c cs ih =>
    obtain ⟨⟨hNot, hLt⟩, hRest⟩ := List.forall_mem_cons.mp hPlain
    have hRest : cs.flatMap (fun c => if pathSet c || 0x7F ≤ c.toNat then percentOf c else [c]) =
        cs := ih hRest
    have hHead : (if pathSet c || 0x7F ≤ c.toNat then percentOf c else [c]) = [c] :=
      if_neg (by simp [hNot, hLt])
    rw [percentEncode, List.flatMap_cons, hHead, hRest]
    rfl

/-- What is encoded is not encoded again. -/
theorem plain_percentEncode {c : Char} (cs : List Char) (hMem : c ∈ percentEncode pathSet cs) :
    pathSet c = false ∧ c.toNat < 0x7F := by
  have hDigit : ∀ n < 16, pathSet (Json.hexDigit n).toUpper = false ∧
      (Json.hexDigit n).toUpper.toNat < 0x7F := by decide
  obtain ⟨d, -, hMem⟩ := List.mem_flatMap.mp hMem
  split at hMem
  · obtain ⟨b, -, hMem⟩ := List.mem_flatMap.mp hMem
    have hByte : b.toNat < 256 := b.toNat_lt
    simp only [List.mem_cons, List.not_mem_nil, or_false] at hMem
    rcases hMem with rfl | rfl | rfl
    · exact ⟨by decide, by decide⟩
    · exact hDigit _ (by omega)
    · exact hDigit _ (by omega)
  · next hNot =>
    obtain rfl := List.mem_singleton.mp hMem
    simpa using hNot

theorem written_isNormal : Written IsNormal where
  nil := isNormal_nil
  piece hCut hUp hHere :=
    ⟨fun _ => plain_percentEncode _, fun c hMem => (isSegment_percentEncode hCut c hMem).2, hUp,
      hHere⟩
  drive {letter} hDrive :=
    { plain := by
        have hLetter := hDrive.plain letter List.mem_cons_self
        simp only [List.mem_cons, List.not_mem_nil, or_false, forall_eq_or_imp, forall_eq]
        exact ⟨hLetter, by decide, by decide⟩
      uncut := by
        have hLetter := hDrive.uncut letter List.mem_cons_self
        simp only [List.mem_cons, List.not_mem_nil, or_false, forall_eq_or_imp, forall_eq]
        exact ⟨hLetter, by decide⟩
      noUp := by simp [isDoubleDot, Chars.toLower]
      noHere := by simp [isSingleDot, Chars.toLower] }

/-- Segments are added to a directory as they are. -/
theorem walk_normal {segs : List (List Char)} (hSegs : ∀ seg ∈ segs, IsNormal .special seg)
    (done : List (List Char)) : walk .special done (segs ++ [[]]) = [] :: (segs.reverse ++ done) := by
  induction segs generalizing done with
  | nil => rfl
  | cons seg segs ih =>
    obtain ⟨hSeg, hRest⟩ := List.forall_mem_cons.mp hSegs
    rw [List.cons_append]
    unfold walk
    -- Only a file has drives.
    simp only [hSeg.noUp, hSeg.noHere, Bool.false_eq_true, reduceCtorEq, false_and, if_false]
    split <;> simp [ih hRest]

/-! ## Section 2: Paths that are read from the root -/

/-- Its pieces between slashes are read as they are written. -/
def IsPath (text : List Char) : Prop :=
  ∀ seg ∈ Chars.splitAt (· == '/') text, IsNormal .special seg

/-- The directories in the path. -/
def pathSegments (text : List Char) : List (List Char) :=
  if text = [] then [] else Chars.splitAt (· == '/') text

theorem isPath_nil : IsPath [] := fun seg hMem => by
  obtain rfl := List.mem_singleton.mp hMem
  exact isNormal_nil _

theorem IsPath.mem (hPath : IsPath text) {c : Char} (hMem : c ∈ text) :
    c = '/' ∨ pathSet c = false ∧ isSlash .special c = false := by
  have hFound : c ∈ (Chars.splitAt (· == '/') text).flatMap ('/' :: ·) :=
    Chars.flatMap_splitAt '/' text ▸ List.mem_cons_of_mem _ hMem
  obtain ⟨seg, hSeg, hMem⟩ := List.mem_flatMap.mp hFound
  exact (List.mem_cons.mp hMem).imp_right fun hMem =>
    ⟨((hPath seg hSeg).plain c hMem).1, (hPath seg hSeg).uncut c hMem⟩

/-- A path in one piece. -/
theorem IsPath.isNormal (hPath : IsPath text) (hNone : '/' ∉ text) : IsNormal .special text := by
  have hSplit : Chars.splitAt (· == '/') text = [text] :=
    Chars.splitAt_of_none fun c hMem => beq_eq_false_iff_ne.mpr fun hEq => hNone (hEq ▸ hMem)
  exact hPath text (hSplit ▸ List.mem_singleton_self _)

/-- What is before the last slash, and what is after it. -/
theorem IsPath.parts (hPath : IsPath (dir ++ '/' :: file)) (hFile : '/' ∉ file) :
    IsPath dir ∧ IsNormal .special file := by
  have hSplit : Chars.splitAt (· == '/') (dir ++ '/' :: file) =
      Chars.splitAt (· == '/') dir ++ Chars.splitAt (· == '/') file := Chars.splitAt_append rfl _ _
  unfold IsPath at hPath
  rw [hSplit] at hPath
  exact ⟨fun seg hSeg => hPath seg (List.mem_append_left _ hSeg), IsPath.isNormal
    (fun seg hSeg => hPath seg (List.mem_append_right _ hSeg)) hFile⟩

theorem endsPath_of_pathSet {c : Char} (hNot : pathSet c = false) : endsPath c = false := by
  have hNe : ∀ d, pathSet d = true → c ≠ d := fun d hIn hEq => by
    rw [hEq, hIn] at hNot
    cases hNot
  simp [endsPath, hNe '?' (by decide), hNe '#' (by decide)]

/-- Every character of the path is read as one of the path. -/
theorem IsPath.clear (hPath : IsPath text) {c : Char} (hMem : c ∈ text) :
    isVisible c = true ∧ c ≠ '\\' ∧ endsPath c = false := by
  rcases hPath.mem hMem with rfl | ⟨hPlain, hCut⟩
  · decide
  · refine ⟨isVisible_of_pathSet hPlain, ?_, endsPath_of_pathSet hPlain⟩
    rintro rfl
    cases hCut

/-- All of the text is read as the part of a path, in one piece. -/
def IsClear (text : List Char) : Prop :=
  ∀ c ∈ text, isVisible c = true ∧ isAnySlash c = false ∧ endsPath c = false

/-- A name in a directory, which it does not lead out of. -/
structure IsFile (file : List Char) : Prop where
  clear : IsClear file
  noUp : isDoubleDot (percentEncode pathSet file) = false

theorem IsClear.append {cs ds : List Char} (hCs : IsClear cs) (hDs : IsClear ds) :
    IsClear (cs ++ ds) := List.forall_mem_append.mpr ⟨hCs, hDs⟩

theorem IsClear.not_mem (hClear : IsClear file) : '/' ∉ file ∧ '\\' ∉ file :=
  ⟨fun hMem => absurd (hClear _ hMem).2.1 (by decide),
    fun hMem => absurd (hClear _ hMem).2.1 (by decide)⟩

theorem isFile_nil : IsFile [] := ⟨by simp [IsClear], by decide⟩

theorem IsNormal.isClear {seg : List Char} (hSeg : IsNormal .special seg) : IsClear seg :=
  fun c hMem => by
    have hPlain := (hSeg.plain c hMem).1
    exact ⟨isVisible_of_pathSet hPlain, hSeg.uncut c hMem, endsPath_of_pathSet hPlain⟩

theorem IsNormal.isFile {seg : List Char} (hSeg : IsNormal .special seg) : IsFile seg :=
  ⟨hSeg.isClear, by rw [percentEncode_eq_self hSeg.plain]; exact hSeg.noUp⟩

/-- **A file in a directory leads to the directory as it is written.** -/
theorem IsPath.directory (hDir : IsPath dir) (hSome : dir ≠ []) (hFile : IsFile file) :
    (pathFrom .special [] (dir ++ '/' :: file)).directory .special = (pathSegments dir).reverse := by
  obtain ⟨hSlash, hBackslash⟩ := hFile.clear.not_mem
  have hSplit : Chars.splitAt (isSlash .special) (dir ++ ['/']) =
      Chars.splitAt (· == '/') dir ++ [[]] := by
    have hSame : ∀ c ∈ dir, isSlash .special c = (c == '/') := fun c hMem => by
      simp [isSlash, (hDir.clear hMem).2.1]
    rw [Chars.splitAt_append (by decide), Chars.splitAt_congr hSame]
    rfl
  have hEncoded : (Chars.splitAt (· == '/') dir ++ [[]]).map (percentEncode pathSet) =
      Chars.splitAt (· == '/') dir ++ [[]] := by
    have hSame : (Chars.splitAt (· == '/') dir).map (percentEncode pathSet) =
        (Chars.splitAt (· == '/') dir).map id :=
      List.map_congr_left fun seg hSeg => percentEncode_eq_self (hDir seg hSeg).plain
    rw [List.map_append, hSame, List.map_id]
    rfl
  -- The file does not matter, and nothing before it changes.
  rw [directory_pathFrom_append (by decide) [] dir hSlash hBackslash hFile.noUp,
    directory_pathFrom (by decide), hSplit, hEncoded, walk_normal hDir, pathSegments, if_neg hSome]
  simp

/-- What is in one piece is at the root. -/
theorem directory_pathFrom_top (hKind : kind ≠ .file) (hNone : ∀ c ∈ text, isSlash kind c = false) :
    (pathFrom kind [] text).directory kind = [] := by
  rw [directory_pathFrom hKind, Chars.splitAt_of_none hNone]
  simp only [List.map_cons, List.map_nil, walk, List.isEmpty_nil, if_true]
  split
  · rfl
  · split <;> rfl

/-- A text is read from the root with a slash before it, if it does not begin with another. -/
theorem IsBase.exists_join_root (hBase : base.IsBase)
    (hClear : ∀ c ∈ text, isVisible c = true ∧ endsPath c = false)
    (hHead : ∀ c ∈ text.head?, isAnySlash c = false) :
    ∃ u, base.join (String.ofList ('/' :: text)) = .ok u ∧ u.IsBase ∧
      u.directory = (pathFrom .special [] text).directory .special := by
  have hReference : IsReference ('/' :: text) := by
    refine ⟨significant_eq_self (List.forall_mem_cons.mpr ⟨by decide, fun c hMem =>
      (hClear c hMem).1⟩), rfl, ?_⟩
    cases text with
    | nil => rfl
    | cons c rest =>
      have hNot : isAnySlash c = false := hHead c rfl
      simp [namesHost, hNot]
  have hPart : pathPart ('/' :: text) = '/' :: text := by
    refine List.takeWhile_eq_self_iff.mpr fun c hMem => ?_
    rcases List.mem_cons.mp hMem with rfl | hMem
    · decide
    · simp [(hClear c hMem).2]
  have hReference : IsReference (String.ofList ('/' :: text)).toList := by
    rwa [String.toList_ofList]
  obtain ⟨u, hJoin, hIsBase, hDirectory⟩ := hReference.isBase hBase
  refine ⟨u, hJoin, hIsBase, ?_⟩
  rw [hDirectory, String.toList_ofList, hPart, hBase.special]
  show (pathFrom base.kind [] text).directory .special = _
  rw [hBase.special]

/-- A name alone is read from the root as a file of the root. -/
theorem IsBase.exists_join_top (hBase : base.IsBase) (hFile : IsClear file) :
    ∃ u, base.join (String.ofList ('/' :: file)) = .ok u ∧ u.IsBase ∧ u.directory = [] := by
  obtain ⟨u, hJoin, hIsBase, hDirectory⟩ := hBase.exists_join_root
    (fun c hMem => ⟨(hFile c hMem).1, (hFile c hMem).2.2⟩)
    fun c hHead => (hFile c (List.mem_of_mem_head? hHead)).2.1
  refine ⟨u, hJoin, hIsBase, hDirectory.trans ?_⟩
  exact directory_pathFrom_top (by decide) fun c hMem => (hFile c hMem).2.1

/-- A file in a directory is read from the root as a file of the directory. -/
theorem IsBase.exists_join_inside (hBase : base.IsBase) (hDir : IsPath dir) (hSome : dir ≠ [])
    (hHead : ∀ c ∈ dir.head?, c ≠ '/') (hFile : IsFile file) :
    ∃ u, base.join (String.ofList ('/' :: (dir ++ '/' :: file))) = .ok u ∧ u.IsBase ∧
      u.directory = (pathSegments dir).reverse := by
  have hClear : ∀ c ∈ dir ++ '/' :: file, isVisible c = true ∧ endsPath c = false := by
    intro c hMem
    rcases List.mem_append.mp hMem with hMem | hMem
    · exact ⟨(hDir.clear hMem).1, (hDir.clear hMem).2.2⟩
    · rcases List.mem_cons.mp hMem with rfl | hMem
      · decide
      · exact ⟨(hFile.clear c hMem).1, (hFile.clear c hMem).2.2⟩
  have hFirst : ∀ c ∈ (dir ++ '/' :: file).head?, isAnySlash c = false := by
    intro c hc
    cases dir with
    | nil => exact absurd rfl hSome
    | cons d dir =>
      obtain rfl : d = c := by simpa using hc
      simp [isAnySlash, hHead d rfl, (hDir.clear List.mem_cons_self).2.1]
  obtain ⟨u, hJoin, hIsBase, hDirectory⟩ := hBase.exists_join_root hClear hFirst
  exact ⟨u, hJoin, hIsBase, hDirectory.trans (hDir.directory hSome hFile)⟩

/-- With two slashes before it a text without any is read as a host, and the path is the root. -/
theorem directory_of_host (hBase : base.IsBase) (hClear : IsClear text)
    (hJoin : base.join (String.ofList ('/' :: '/' :: text)) = .ok u) : u.directory = [] := by
  have hText : significant (String.ofList ('/' :: '/' :: text)).toList = '/' :: '/' :: text := by
    rw [String.toList_ofList]
    refine significant_eq_self fun c hMem => ?_
    simp only [List.mem_cons] at hMem
    rcases hMem with rfl | rfl | hMem
    · decide
    · decide
    · exact (hClear c hMem).1
  unfold join at hJoin
  rw [readFrom_of_local hText (Or.inr rfl), if_neg (by simp [hBase.hierarchical]),
    if_neg (by simp [hBase.special])] at hJoin
  have hRead : afterSlashes base.scheme text = .ok u := hJoin
  obtain ⟨hScheme, path, hSub, hPath⟩ := path_of_afterSlashes hRead
  have hKind : Kind.of base.scheme = .special := hBase.special
  have hNone : ∀ c ∈ path, isSlash .special c = false := fun c hMem => (hClear c (hSub hMem)).2.1
  have hTop : pathAfterHost .special path = pathFrom .special [] path := by
    cases path with
    | nil => rfl
    | cons c path => exact if_neg (by simp [hNone c List.mem_cons_self])
  show u.path.directory (Kind.of u.scheme) = []
  rw [hPath, hScheme, hKind, hTop]
  exact directory_pathFrom_top (by decide) hNone

/-! ### Names with an ending -/

theorem eq_dot_of_toLower {c : Char} (hLower : c.toLower = '.') : c = '.' := by
  unfold Char.toLower at hLower
  split at hLower
  · next hCapital =>
    have hVal : c.val + 32 = '.'.val := congrArg Char.val hLower
    have hNat := congrArg UInt32.toNat hVal
    have hLower := UInt32.le_iff_toNat_le.mp hCapital.1
    have hUpper := UInt32.le_iff_toNat_le.mp hCapital.2
    simp at hNat hLower hUpper
    omega
  · exact hLower

/-- What goes on after a dot only leads up if what is before the dot stands for the directory
    itself. -/
theorem IsNormal.noUp_append {seg : List Char} (hSeg : IsNormal .special seg) (hSome : seg ≠ [])
    (rest : List Char) : isDoubleDot (percentEncode pathSet (seg ++ '.' :: rest)) = false := by
  have hEncoded : percentEncode pathSet (seg ++ '.' :: rest) =
      seg ++ '.' :: percentEncode pathSet rest := by
    rw [percentEncode, List.flatMap_append]
    exact congrArg (· ++ _) (percentEncode_eq_self hSeg.plain)
  refine Bool.eq_false_iff.mpr fun hUp => ?_
  rw [hEncoded] at hUp
  have hHere : Chars.toLower seg = ['.'] ∨ Chars.toLower seg = ['%', '2', 'e'] := by
    have hSome : Chars.toLower seg ≠ [] := by simpa [Chars.toLower] using hSome
    have hDot : Char.toLower '.' = '.' := by decide
    unfold isDoubleDot at hUp
    rw [Chars.toLower, List.map_append, List.map_cons, hDot] at hUp
    simp [List.append_eq_cons_iff, List.cons_eq_append_iff] at hUp
    grind [Chars.toLower]
  refine Bool.eq_false_iff.mp hSeg.noHere ?_
  rcases hHere with hDot | hCode
  · obtain ⟨c, rfl⟩ : ∃ c, seg = [c] :=
      List.length_eq_one_iff.mp (by simpa [Chars.toLower] using congrArg List.length hDot)
    obtain rfl : c = '.' := eq_dot_of_toLower (by simpa [Chars.toLower] using hDot)
    decide
  · simp [isSingleDot, hCode]

end Url

/-! ## Section 3: The paths of modules -/

namespace LocalPath

variable {page : Page} {specifier dir basePath path : String} {extensions : List String}

/-- **A base path is read again as it is written**, unless there is a backslash in it. -/
theorem isPath_of_resolve (hPage : page.location.Keeps Url.IsNormal)
    (hLocal : isLocal specifier = true) (hResolve : resolve specifier dir page = .ok basePath)
    (hNot : '\\' ∉ basePath.toList) : Url.IsPath basePath.toList := by
  obtain ⟨base, u, hBase, hJoin, rfl⟩ := exists_of_resolve hResolve
  have hKeeps := Url.written_isNormal.join hPage (Page.join_eq_ok_iff.mp hBase)
  obtain ⟨-, hHolds⟩ := Url.written_isNormal.of_local hLocal hKeeps hJoin
  unfold Url.Holds at hHolds
  cases hPath : u.path with
  | opaque_ text =>
    rw [hPath] at hHolds
    exact hHolds.elim
  | segments parts =>
    rw [hPath] at hHolds
    -- The base path is the written path without the slashes at its ends: its pieces are segments.
    have hText : (trimDir u.pathText).toList =
        Chars.trimWhile (· == '/') ([] ++ parts.flatMap ('/' :: ·)) := by
      simp [trimDir, Text.trimSlashes, Url.pathText, hPath, Url.Path.chars]
    have hSlash : ∀ seg ∈ [] :: parts, ∀ c ∈ seg, (c == '/') = false := by
      intro seg hSeg c hMem
      rcases List.mem_cons.mp hSeg with rfl | hSeg
      · cases hMem
      · exact (Bool.or_eq_false_iff.mp ((hHolds seg hSeg).uncut c hMem)).1
    intro seg hSeg
    have hPart : seg ∈ [] :: parts := by
      rw [← Chars.splitAt_flatMap (p := (· == '/')) (c := '/') rfl hSlash]
      exact Chars.splitAt_trimWhile_subset _ (hText ▸ hSeg)
    rcases List.mem_cons.mp hPart with rfl | hMem
    · exact Url.isNormal_nil _
    -- In a URL of another kind a backslash would be no separator; here there is none.
    · have hNormal := hHolds seg hMem
      refine ⟨hNormal.plain, fun c hc => ?_, hNormal.noUp, hNormal.noHere⟩
      refine Url.isSlash_eq_false (beq_eq_false_iff_ne.mp (hSlash seg hPart c hc)) ?_
      rintro rfl
      exact hNot (Chars.subset_of_mem_splitAt hSeg hc)

/-- An extension is a dot, and what can stand in a name. -/
structure IsExtension (e : String) : Prop where
  dot : ∃ rest, e.toList = '.' :: rest
  clear : Url.IsClear e.toList

/-- How the paths of modules are made up. -/
inductive IsModulePath : List Char → Prop
  /-- A name alone. -/
  | top {file : List Char} (hFile : Url.IsClear file) : IsModulePath file
  /-- The index of the root of the site, with the slash before it. -/
  | index {file : List Char} (hFile : Url.IsClear file) : IsModulePath ('/' :: file)
  /-- A file in a directory. -/
  | inside {dir file : List Char} (hDir : Url.IsPath dir) (hSome : dir ≠ [])
      (hHead : ∀ c ∈ dir.head?, c ≠ '/') (hFile : Url.IsFile file) :
      IsModulePath (dir ++ '/' :: file)

/-- A name with an extension is a file. -/
theorem IsExtension.isFile {e : String} (hExtension : IsExtension e) {seg : List Char}
    (hSeg : Url.IsNormal .special seg) (hSome : seg ≠ []) : Url.IsFile (seg ++ e.toList) := by
  refine ⟨hSeg.isClear.append hExtension.clear, ?_⟩
  obtain ⟨rest, hText⟩ := hExtension.dot
  rw [hText]
  exact hSeg.noUp_append hSome rest

theorem isNormal_index : Url.IsNormal .special "index".toList := by
  have hAll : "index".toList.all (fun c =>
      !Url.pathSet c && decide (c.toNat < 0x7F) && !Url.isSlash .special c) = true := by decide
  simp only [List.all_eq_true, Bool.and_eq_true, Bool.not_eq_true', decide_eq_true_eq] at hAll
  exact ⟨fun c hMem => (hAll c hMem).1, fun c hMem => (hAll c hMem).2, by decide, by decide⟩

/-- The candidates of the root of the site. -/
theorem isModulePath_of_root (hExtensions : ∀ e ∈ extensions, IsExtension e)
    (hMem : path ∈ candidates extensions "") : IsModulePath path.toList := by
  obtain ⟨ending, rfl, rfl | hExtension | ⟨e, he, rfl⟩⟩ := exists_ending (by decide) hMem
  · exact .top (by simp [Url.IsClear])
  · rw [String.empty_append]
    exact .top (hExtensions ending hExtension).clear
  · have hText : ("" ++ ("/index" ++ e)).toList = '/' :: ("index".toList ++ e.toList) := by simp
    rw [hText]
    exact .index (isNormal_index.isClear.append (hExtensions e he).clear)

section Candidates

variable (hPath : Url.IsPath basePath.toList) (hTrimmed : trimDir basePath = basePath)

include hTrimmed in
theorem head_of_basePath : ∀ c ∈ basePath.toList.head?, c ≠ '/' := fun c hHead => by
  obtain ⟨rest, hChars⟩ := List.head?_eq_some_iff.mp hHead
  exact head_of_trimmed hTrimmed hChars

include hTrimmed in
theorem last_ne_nil {dir file : List Char} (hText : basePath.toList = dir ++ '/' :: file) :
    file ≠ [] := by
  rintro rfl
  have hSelf : Chars.dropEndWhile (· == '/') basePath.toList = basePath.toList := by
    simpa [Text.dropEndSlashes] using congrArg String.toList (dropEndSlashes_of_trimmed hTrimmed)
  cases Chars.last_of_dropEndWhile (hText ▸ hSelf)

include hPath hTrimmed in
/-- What makes a file of every name makes the path of a module of a base path. -/
theorem isModulePath_append (hSome : basePath.toList ≠ []) {ending : List Char}
    (hName : ∀ {seg : List Char}, Url.IsNormal .special seg → seg ≠ [] →
      Url.IsFile (seg ++ ending)) : IsModulePath (basePath.toList ++ ending) := by
  have hHead := head_of_basePath hTrimmed
  -- The ending is put to the last segment, and what is before that is the directory.
  rcases Chars.cutLast?_slash basePath.toList with ⟨-, hNone⟩ | ⟨dir, file, -, hText, hFile⟩
  · exact .top (hName (hPath.isNormal hNone) hSome).clear
  · obtain ⟨hDir, hSeg⟩ := Url.IsPath.parts (hText ▸ hPath) hFile
    have hFile := hName hSeg (last_ne_nil hTrimmed hText)
    rw [hText] at hHead ⊢
    rw [List.append_assoc]
    cases dir with
    | nil => exact absurd rfl (hHead '/' rfl)
    | cons c dir => exact .inside hDir (List.cons_ne_nil c dir) hHead hFile

include hPath hTrimmed in
/-- **The candidates of a base path are paths of modules.** -/
theorem isModulePath_of_candidate (hExtensions : ∀ e ∈ extensions, IsExtension e)
    (hMem : path ∈ candidates extensions basePath) : IsModulePath path.toList := by
  by_cases hNone : basePath = ""
  · subst hNone
    exact isModulePath_of_root hExtensions hMem
  have hSome : basePath.toList ≠ [] := fun hNil =>
    hNone (String.toList_inj.mp (hNil.trans String.toList_empty.symm))
  obtain ⟨ending, rfl, rfl | he | ⟨e, he, rfl⟩⟩ := exists_ending hTrimmed hMem
  · rw [String.toList_append]
    exact isModulePath_append hPath hTrimmed hSome fun hSeg _ => by simpa using hSeg.isFile
  · rw [String.toList_append]
    exact isModulePath_append hPath hTrimmed hSome (hExtensions ending he).isFile
  · have hText : (basePath ++ ("/index" ++ e)).toList =
        basePath.toList ++ '/' :: ("index".toList ++ e.toList) := by simp
    rw [hText]
    exact .inside hPath hSome (head_of_basePath hTrimmed)
      ((hExtensions e he).isFile isNormal_index (by decide))

end Candidates

/-! ## Section 4: Both directories of a module -/

section Directories

variable {u : Url} {text : List Char}

theorem dirOf_eq {dir file : List Char} (hText : path.toList = dir ++ '/' :: file)
    (hFile : '/' ∉ file) : dirOf path = String.ofList dir := by
  unfold dirOf
  rcases Chars.cutLast?_slash path.toList with ⟨-, hNone⟩ | ⟨dir', file', hCut, hText', hFile'⟩
  · rw [hText] at hNone
    exact absurd (List.mem_append_right _ List.mem_cons_self) hNone
  · rw [hCut]
    have hSame : dir ++ '/' :: file = dir' ++ '/' :: file' := hText.symm.trans hText'
    have hLast := congrArg Url.lastSegment hSame
    rw [Url.lastSegment_append hFile, Url.lastSegment_append hFile'] at hLast
    subst hLast
    rw [List.append_cancel_right hSame]

theorem dirOf_of_not_mem (hNone : '/' ∉ path.toList) : dirOf path = "" := by
  unfold dirOf
  rcases Chars.cutLast?_slash path.toList with ⟨hCut, -⟩ | ⟨dir, file, -, hText, -⟩
  · rw [hCut]
  · rw [hText] at hNone
    exact absurd (List.mem_append_right _ List.mem_cons_self) hNone

theorem slash_append (text : List Char) : "/" ++ String.ofList text = String.ofList ('/' :: text) :=
  String.toList_inj.mp (by simp)

/-- **The module is fetched from the directory of its path.** -/
theorem IsModulePath.directory (hModule : IsModulePath path.toList) (hBase : page.location.IsBase)
    (hJoin : page.join ("/" ++ path) = .ok u) : ∃ dir, dirOf path = String.ofList dir ∧
      Url.IsPath dir ∧ (∀ c ∈ dir.head?, c ≠ '/') ∧ u.directory = (Url.pathSegments dir).reverse := by
  have hJoin := Page.join_eq_ok_iff.mp hJoin
  rw [← String.ofList_toList (s := path), slash_append] at hJoin
  -- What is read with the slash before the path is known for each shape of it.
  generalize hText : path.toList = text at hModule hJoin
  cases hModule with
  | top hFile =>
    obtain ⟨v, hThere, -, hDirectory⟩ := hBase.exists_join_top hFile
    obtain rfl := Except.ok.inj (hJoin.symm.trans hThere)
    exact ⟨[], dirOf_of_not_mem (hText ▸ hFile.not_mem.1), Url.isPath_nil, by simp, hDirectory⟩
  | index hFile =>
    exact ⟨[], dirOf_eq hText hFile.not_mem.1, Url.isPath_nil, by simp,
      Url.directory_of_host hBase hFile hJoin⟩
  | inside hDir hSome hHead hFile =>
    obtain ⟨v, hThere, -, hDirectory⟩ := hBase.exists_join_inside hDir hSome hHead hFile
    obtain rfl := Except.ok.inj (hJoin.symm.trans hThere)
    exact ⟨_, dirOf_eq hText hFile.clear.not_mem.1, hDir, hHead, hDirectory⟩

/-- **What it imports is seen from the directory of its path, without slashes at the ends.** -/
theorem exists_join_dir (hBase : page.location.IsBase) {dir : List Char}
    (hName : dirOf path = String.ofList dir) (hDir : Url.IsPath dir) :
    ∃ base, page.join (dirReference (baseDirOf path)) = .ok base ∧ base.IsBase ∧
      base.directory = (Url.pathSegments (Chars.trimWhile (· == '/') dir)).reverse := by
  generalize hTrimmed : Chars.trimWhile (· == '/') dir = name
  have hPath : Url.IsPath name := fun seg hSeg =>
    hDir seg (Chars.splitAt_trimWhile_subset dir (hTrimmed ▸ hSeg))
  have hTrim : trimDir (baseDirOf path) = String.ofList name := by
    rw [baseDirOf, hName, trimDir_slash, ← hTrimmed]
    simp [trimDir, Text.trimSlashes, Text.via]
  -- A directory without a name is the root of the site.
  by_cases hNone : name = []
  · have hReference : dirReference (baseDirOf path) = String.ofList ['/'] := by
      unfold dirReference
      rw [hTrim, hNone, baseDirOf, startsWith_slash]
      rfl
    obtain ⟨u, hJoin, hIsBase, hDirectory⟩ := hBase.exists_join_top Url.isFile_nil.clear
    rw [hReference, hNone]
    exact ⟨u, Page.join_eq_ok_iff.mpr hJoin, hIsBase, hDirectory⟩
  · have hReference : dirReference (baseDirOf path) = String.ofList ('/' :: (name ++ ['/'])) := by
      unfold dirReference
      dsimp only
      rw [hTrim, baseDirOf, startsWith_slash, if_pos rfl, if_neg (ofList_ne_empty hNone)]
      exact String.toList_inj.mp (by simp)
    have hHead : ∀ c ∈ name.head?, c ≠ '/' := fun c hc =>
      beq_eq_false_iff_ne.mp (Chars.head_of_trimWhile (p := (· == '/')) dir c (hTrimmed ▸ hc))
    obtain ⟨u, hJoin, hIsBase, hDirectory⟩ :=
      hBase.exists_join_inside hPath hNone hHead Url.isFile_nil
    rw [hReference]
    exact ⟨u, Page.join_eq_ok_iff.mpr hJoin, hIsBase, hDirectory⟩

/-! ### Where the two agree -/

/-- Trimming leaves a directory as it is if there is no slash at its end. -/
theorem trimWhile_eq_self_iff {dir : List Char} (hHead : ∀ c ∈ dir.head?, c ≠ '/') :
    Chars.trimWhile (· == '/') dir = dir ↔ Text.endsWith "/" (String.ofList dir) = false := by
  have hEnds : Text.endsWith "/" (String.ofList dir) = true ↔ ∃ rest, dir = rest ++ ['/'] := by
    simp only [Text.endsWith, Chars.endsWith, Option.isSome_iff_exists,
      Chars.stripSuffix?_eq_some_iff, String.toList_ofList]
    rfl
  rw [← Bool.not_eq_true, hEnds]
  constructor
  · rintro hSelf ⟨rest, hText⟩
    have hEnd : Chars.dropEndWhile (· == '/') dir = dir :=
      (congrArg _ hSelf.symm).trans ((Chars.dropEndWhile_dropEndWhile _).trans hSelf)
    cases Chars.last_of_dropEndWhile (hText ▸ hEnd)
  · intro hNone
    refine Chars.trimWhile_eq_self (fun c hc => beq_eq_false_iff_ne.mpr (hHead c hc)) fun c hc => ?_
    refine beq_eq_false_iff_ne.mpr ?_
    rintro rfl
    exact hNone (List.getLast?_eq_some_iff.mp hc)

/-- What is beside a file in the directory. -/
theorem trimmed_beside {dir : List Char} (hHead : ∀ c ∈ dir.head?, c ≠ '/') :
    Chars.trimWhile (· == '/')
        (Url.pathFrom .special (Url.pathSegments dir).reverse "./x".toList).chars =
      if dir = [] then ['x'] else dir ++ ['/', 'x'] := by
  rw [Url.pathFrom_beside, List.reverse_reverse]
  by_cases hNone : dir = []
  · rw [if_pos hNone, Url.pathSegments, if_pos hNone]
    decide
  · have hChars : (Url.Path.segments (Url.pathSegments dir ++ [['x']])).chars =
        ['/'] ++ (dir ++ ['/', 'x']) := by
      rw [Url.pathSegments, if_neg hNone, Url.Path.chars, List.flatMap_append,
        Chars.flatMap_splitAt]
      rfl
    rw [hChars, Chars.trimWhile_append (by simp), if_neg hNone]
    refine Chars.trimWhile_eq_self (fun c hc => ?_) fun c hc => ?_
    · cases dir with
      | nil => exact absurd rfl hNone
      | cons d dir =>
        obtain rfl : d = c := by simpa using hc
        exact beq_eq_false_iff_ne.mpr (hHead d rfl)
    · obtain rfl : 'x' = c := by simpa using hc
      decide

/-- Seen from the directory of the path, the specifier means what is reached by it from the URL at
    which the path is fetched. -/
def ResolvesFromModule (page : Page) (path specifier : String) : Prop :=
  ∃ u v, page.join ("/" ++ path) = .ok u ∧ u.join specifier = .ok v ∧
    resolve specifier (baseDirOf path) page = .ok (trimDir v.pathText)

/-- **Relative imports of a module mean what they mean where the module was fetched**, exactly unless
    there is an empty segment before the last one of its path. -/
theorem IsModulePath.resolvesFromModule_iff (hModule : IsModulePath path.toList)
    (hBase : page.location.IsBase) (hU : u.IsBase) (hJoin : page.join ("/" ++ path) = .ok u) :
    (∀ specifier, isRelative specifier = true → ResolvesFromModule page path specifier) ↔
      Text.endsWith "/" (dirOf path) = false := by
  obtain ⟨dir, hName, hDir, hHead, hThere⟩ := hModule.directory hBase hJoin
  obtain ⟨base, hSeen, hIsBase, hHere⟩ := exists_join_dir hBase hName hDir
  rw [hName, ← trimWhile_eq_self_iff hHead]
  have hResolves : ∀ specifier, ResolvesFromModule page path specifier ↔
      ∃ v, u.join specifier = .ok v ∧
        resolve specifier (baseDirOf path) page = .ok (trimDir v.pathText) := by
    intro specifier
    constructor
    · rintro ⟨u', v, hJoin', hRest⟩
      obtain rfl := Except.ok.inj (hJoin.symm.trans hJoin')
      exact ⟨v, hRest⟩
    · rintro ⟨v, hRest⟩
      exact ⟨u, v, hJoin, hRest⟩
  generalize hTrimmed : Chars.trimWhile (· == '/') dir = name at hHere ⊢
  constructor
  · intro hAll
    -- One specifier tells the two directories apart: what is beside the module.
    have hRelative : isRelative "./x" = true := by decide
    have hText : Url.pathPart (Url.significant "./x".toList) = "./x".toList := by decide
    have hSame := (resolves_iff hU hIsBase hSeen hRelative).mp ((hResolves _).mp (hAll _ hRelative))
    have hNameHead : ∀ c ∈ name.head?, c ≠ '/' := fun c hc =>
      beq_eq_false_iff_ne.mp (Chars.head_of_trimWhile (p := (· == '/')) dir c (hTrimmed ▸ hc))
    rw [hText, hThere, hHere, trimmed_beside hHead, trimmed_beside hNameHead] at hSame
    by_cases hNone : dir = []
    · rw [← hTrimmed, hNone]
      rfl
    · rw [if_neg hNone] at hSame
      split at hSame
      · have hLength := congrArg List.length hSame
        simp at hLength
      · exact (List.append_cancel_right hSame).symm
  · rintro rfl specifier hRelative
    rw [hResolves, resolves_iff hU hIsBase hSeen hRelative, hThere, hHere]

end Directories

/-- The usual extensions are such. -/
theorem isExtension_default : ∀ e ∈ ({} : Settings).extensions, IsExtension e := by
  have hAll : ∀ e ∈ ({} : Settings).extensions, e.toList.head? = some '.' ∧
      e.toList.all (fun c => Url.isVisible c && (!Url.isAnySlash c && !Url.endsPath c)) = true := by
    decide
  intro e he
  obtain ⟨hHead, hClear⟩ := hAll e he
  obtain ⟨rest, hText⟩ := List.head?_eq_some_iff.mp hHead
  simp only [List.all_eq_true, Bool.and_eq_true, Bool.not_eq_true'] at hClear
  exact ⟨⟨rest, hText⟩, hClear⟩

end LocalPath

/-! ## Section 5: Modules that are found -/

namespace Load

variable {l : Loader} {basePath path source : String} {hist : History}

/-- What is returned was found at the first of the candidates that can be fetched. -/
theorem foundFirst_of_came (hCame : (fetchSource l basePath).run.Came hist
    (.done (.ok (path, source)))) : hist.FoundFirst l basePath path source := by
  have hFound : (hist ++ []).FoundFirst l basePath path source :=
    ((obeys_fetchSource basePath).came hCame).of_done path source rfl
  rwa [List.append_nil] at hFound

/-- Each candidate that can be asked for is found in some run. -/
theorem exists_came_fetchSource {u : Url}
    (hMem : path ∈ LocalPath.candidates l.extensions basePath)
    (hJoin : l.page.join ("/" ++ path) = .ok u) :
    ∃ hist, (fetchSource l basePath).run.Came hist (.done (.ok (path, ""))) := by
  obtain ⟨w, hGoes, -⟩ := goes_fetchFirst (h := Site.host {}) (w := {}) basePath
    (LocalPath.candidates l.extensions basePath) hMem hJoin
  obtain ⟨hist, hCalls⟩ := Calls.of_goes hGoes
  exact ⟨hist, hCalls.came⟩

end Load

namespace Loader

variable {l : Loader} {specifier dir basePath path source : String} {hist : History}

/-- **Relative imports of a module mean what they mean at the URL where its source was found**,
    exactly unless there is an empty segment before the last one of its path: its directory would
    end in a slash, which is trimmed. A backslash is in the path only where the specifier was seen
    from a URL of a scheme that is not special. -/
theorem resolves_from_module_iff {href : String} (hPage : Url.parse href = .ok l.page.location)
    (hHttp : l.page.location.IsHttp) (hExtensions : ∀ e ∈ l.extensions, LocalPath.IsExtension e)
    (hLocal : LocalPath.isLocal specifier = true)
    (hResolve : LocalPath.resolve specifier dir l.page = .ok basePath)
    (hCame : (Load.fetchSource l basePath).run.Came hist (.done (.ok (path, source)))) :
    ('\\' ∉ basePath.toList →
      ((∀ specifier, LocalPath.isRelative specifier = true →
          LocalPath.ResolvesFromModule l.page path specifier) ↔
        Text.endsWith "/" (LocalPath.dirOf path) = false)) ∧
      ('\\' ∈ basePath.toList → ∃ base, l.page.join (LocalPath.dirReference dir) = .ok base ∧
        base.kind = .plain) := by
  obtain ⟨hTrimmed, -, hBackslash⟩ :=
    LocalPath.resolve_clean (Url.isRead_of_parse hPage) hLocal hResolve
  refine ⟨fun hNot => ?_, hBackslash⟩
  have hKeeps := Url.written_isNormal.parse hPage
  have hHolds := hKeeps.holds_of_kind (by simp [hHttp.kind])
  have hBase : l.page.location.IsBase := ⟨hHttp.kind, hHolds.isOpaque⟩
  obtain ⟨before, after, hAll, -, u, hJoin, -⟩ := Load.foundFirst_of_came hCame
  have hModule : LocalPath.IsModulePath path.toList := by
    have hPath := LocalPath.isPath_of_resolve hKeeps hLocal hResolve hNot
    refine LocalPath.isModulePath_of_candidate hPath hTrimmed hExtensions ?_
    rw [hAll]
    exact List.mem_append_right _ List.mem_cons_self
  have hU : u.IsBase := by
    have hSlash : LocalPath.isLocal ("/" ++ path) = true := by
      simp [LocalPath.isLocal, LocalPath.startsWith_slash]
    obtain ⟨hKind, hHolds⟩ :=
      Url.written_isNormal.of_local hSlash hKeeps (Page.join_eq_ok_iff.mp hJoin)
    exact ⟨hKind.trans hBase.special, hHolds.isOpaque⟩
  exact hModule.resolvesFromModule_iff hBase hU hJoin

/-- An empty segment further up does no harm. -/
theorem resolves_from_module_nested : Url.parse "https://e.test/" = .ok Replay.loader.page.location ∧
    Replay.loader.page.location.IsHttp ∧ LocalPath.isLocal "./a//b/c.ts" = true ∧
    LocalPath.resolve "./a//b/c.ts" "" Replay.loader.page = .ok "a//b/c.ts" ∧
    (∃ hist, (Load.fetchSource Replay.loader "a//b/c.ts").run.Came hist
      (.done (.ok ("a//b/c.ts", "")))) ∧
    ∀ specifier, LocalPath.isRelative specifier = true →
      LocalPath.ResolvesFromModule Replay.loader.page "a//b/c.ts" specifier := by
  have hPage : Url.parse "https://e.test/" = .ok Replay.loader.page.location :=
    eq_ok_of_toOption (by decide +kernel)
  have hHttp : Replay.loader.page.location.IsHttp := Or.inr rfl
  have hResolve : LocalPath.resolve "./a//b/c.ts" "" Replay.loader.page = .ok "a//b/c.ts" :=
    eq_ok_of_toOption (by decide +kernel)
  have hJoin : Replay.loader.page.join "/a//b/c.ts" =
      .ok (Replay.pageAt ["a", "", "b", "c.ts"]).location := eq_ok_of_toOption (by decide +kernel)
  have hMem : "a//b/c.ts" ∈ LocalPath.candidates Replay.loader.extensions "a//b/c.ts" := by
    decide +kernel
  obtain ⟨hist, hCame⟩ := Load.exists_came_fetchSource hMem hJoin
  have hIff := resolves_from_module_iff hPage hHttp LocalPath.isExtension_default rfl hResolve hCame
  exact ⟨hPage, hHttp, rfl, hResolve, ⟨hist, hCame⟩, (hIff.1 (by decide)).mpr (by decide +kernel)⟩

/-- With an empty segment before the last one the imports are looked for elsewhere. -/
theorem not_resolves_from_module : ¬ ∀ specifier dir basePath hist path source,
    LocalPath.isLocal specifier = true →
    LocalPath.resolve specifier dir Replay.loader.page = .ok basePath →
    (Load.fetchSource Replay.loader basePath).run.Came hist (.done (.ok (path, source))) →
    ∀ specifier, LocalPath.isRelative specifier = true →
      LocalPath.ResolvesFromModule Replay.loader.page path specifier := by
  intro hAll
  have hResolve : LocalPath.resolve "./a//b.ts" "" Replay.loader.page = .ok "a//b.ts" :=
    eq_ok_of_toOption (by decide +kernel)
  have hAt : Replay.loader.page.join "/a//b.ts" = .ok (Replay.pageAt ["a", "", "b.ts"]).location :=
    eq_ok_of_toOption (by decide +kernel)
  have hMem : "a//b.ts" ∈ LocalPath.candidates Replay.loader.extensions "a//b.ts" := by
    decide +kernel
  obtain ⟨hist, hCame⟩ := Load.exists_came_fetchSource hMem hAt
  obtain ⟨u, v, hFetched, hThere, hHere⟩ := hAll _ _ _ _ _ _ rfl hResolve hCame "./t.ts" rfl
  obtain rfl := Except.ok.inj (hAt.symm.trans hFetched)
  have hBeside : (Replay.pageAt ["a", "", "b.ts"]).location.join "./t.ts" =
      .ok (Replay.pageAt ["a", "", "t.ts"]).location := eq_ok_of_toOption (by decide +kernel)
  obtain rfl := Except.ok.inj (hBeside.symm.trans hThere)
  have hSeen : LocalPath.resolve "./t.ts" (LocalPath.baseDirOf "a//b.ts") Replay.loader.page =
      .ok "a/t.ts" := eq_ok_of_toOption (by decide +kernel)
  exact absurd (Except.ok.inj (hSeen.symm.trans hHere)) (by decide +kernel)

end Loader

end Bundleless
