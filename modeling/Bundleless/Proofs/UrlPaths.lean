import Bundleless.Proofs.Cutting
import Bundleless.Url.Parser

/-! # What stands in the path of a URL

    Reading cuts a path at its separators, encodes the pieces and walks along
    them, up and down, from the root or from the directory of a base. What is
    true of single segments that are written in this way is therefore true of
    all segments in the path of a URL that was read. So the segments hold
    visible characters only, and no separator of their kind of URL.
-/

namespace Bundleless.Url

variable {kind : Kind} {c : Char} {cs seg : List Char} {segs done : List (List Char)}

/-! ## Section 1: Segments -/

/-- Not a control character and not a blank. -/
def isVisible (c : Char) : Bool := 0x20 < c.toNat

/-- All characters can be seen, and none of them separates segments. -/
def IsSegment (kind : Kind) (seg : List Char) : Prop :=
  ∀ c ∈ seg, isVisible c = true ∧ isSlash kind c = false

theorem isSegment_nil : IsSegment kind [] := fun _ hMem => nomatch hMem

/-- The separators are the two slashes. -/
theorem isSlash_eq_false (hSlash : c ≠ '/') (hBackslash : c ≠ '\\') : isSlash kind c = false := by
  simp [isSlash, hSlash, hBackslash]

/-- What is encoded is written with percent signs and hexadecimal digits. -/
theorem isSegment_percentOf (c : Char) : IsSegment kind (percentOf c) := by
  have hDigit : ∀ n < 16, isVisible (Json.hexDigit n).toUpper = true ∧
      (Json.hexDigit n).toUpper ≠ '/' ∧ (Json.hexDigit n).toUpper ≠ '\\' := by decide
  have hOf : ∀ n < 16, isVisible (Json.hexDigit n).toUpper = true ∧
      isSlash kind (Json.hexDigit n).toUpper = false := fun n hLt =>
    ⟨(hDigit n hLt).1, isSlash_eq_false (hDigit n hLt).2.1 (hDigit n hLt).2.2⟩
  intro d hMem
  obtain ⟨b, -, hMem⟩ := List.mem_flatMap.mp hMem
  have hByte : b.toNat < 256 := b.toNat_lt
  rcases List.mem_cons.mp hMem with rfl | hMem
  · exact ⟨by decide, isSlash_eq_false (by decide) (by decide)⟩
  · rcases List.mem_cons.mp hMem with rfl | hMem
    · exact hOf _ (by omega)
    · obtain rfl := List.mem_singleton.mp hMem
      exact hOf _ (by omega)

/-- What is not encoded in a path can be seen. -/
theorem isVisible_of_pathSet (hNot : pathSet c = false) : isVisible c = true := by
  simp only [pathSet, fragmentSet, controlSet, Bool.or_eq_false_iff, decide_eq_false_iff_not,
    Nat.not_lt] at hNot
  obtain ⟨⟨hControl, hBlank⟩, -⟩ := hNot
  have hNe : c ≠ ' ' := by
    rintro rfl
    simp at hBlank
  have hNat : c.toNat ≠ 0x20 := fun hEq => hNe (by rw [← Char.ofNat_toNat c, hEq])
  exact decide_eq_true (by omega)

/-- A piece between two separators is a segment once it is encoded. -/
theorem isSegment_percentEncode (hCut : ∀ c ∈ cs, isSlash kind c = false) :
    IsSegment kind (percentEncode pathSet cs) := by
  intro d hMem
  obtain ⟨c, hc, hMem⟩ := List.mem_flatMap.mp hMem
  split at hMem
  · exact isSegment_percentOf c d hMem
  · next hNot =>
    obtain rfl := List.mem_singleton.mp hMem
    have hPlain : pathSet d = false := by simp_all
    exact ⟨isVisible_of_pathSet hPlain, hCut d hc⟩

/-! ## Section 2: What is written is kept -/

variable {P : Kind → List Char → Prop}

/-- Reading writes only segments with the property: no text at all, encoded pieces that are not
    walked along, and the names of drives, with a colon for the bar. -/
structure Written (P : Kind → List Char → Prop) : Prop where
  nil (kind : Kind) : P kind []
  piece {kind : Kind} {cs : List Char} : (∀ c ∈ cs, isSlash kind c = false) →
    isDoubleDot (percentEncode pathSet cs) = false →
    isSingleDot (percentEncode pathSet cs) = false → P kind (percentEncode pathSet cs)
  drive {letter : Char} : P .file [letter, '|'] → P .file [letter, ':']

/-- The path is a list of segments with the property. -/
def Path.All (P : List Char → Prop) : Path → Prop
  | .segments parts => ∀ seg ∈ parts, P seg
  | .opaque_ _ => False

/-- The segments of the path have the property that belongs to the kind of the URL. -/
def Holds (P : Kind → List Char → Prop) (u : Url) : Prop := u.path.All (P u.kind)

/-- They have, or the path is opaque, as only those of URLs that are not special may be. -/
def Keeps (P : Kind → List Char → Prop) (u : Url) : Prop :=
  u.Holds P ∨ u.isOpaque = true ∧ u.kind = .plain

theorem Holds.isOpaque {u : Url} (hHolds : u.Holds P) : u.isOpaque = false := by
  unfold Holds at hHolds
  unfold Url.isOpaque
  cases hPath : u.path with
  | segments parts => rfl
  | opaque_ text => rw [hPath] at hHolds; exact hHolds.elim

theorem Keeps.holds {u : Url} (hKeeps : u.Keeps P) (hNot : u.isOpaque = false) : u.Holds P := by
  rcases hKeeps with hHolds | ⟨hOpaque, -⟩
  · exact hHolds
  · cases hNot.symm.trans hOpaque

theorem Keeps.holds_of_kind {u : Url} (hKeeps : u.Keeps P) (hKind : u.kind ≠ .plain) :
    u.Holds P := hKeeps.resolve_right fun hPlain => hKind hPlain.2

/-- The directory of a path has some of its segments. -/
theorem Path.All.directory {P : List Char → Prop} {path : Path} (hAll : path.All P) (kind : Kind) :
    ∀ seg ∈ path.directory kind, P seg := by
  have hReversed : ∀ seg ∈ path.reversed, P seg := by
    cases path with
    | segments parts => exact fun seg hMem => hAll seg (List.mem_reverse.mp hMem)
    | opaque_ text => exact hAll.elim
  unfold Path.directory
  split
  · exact fun _ hMem => nomatch hMem
  · next seg done hIs =>
    rw [hIs] at hReversed
    split
    · exact hReversed
    · exact fun s hMem => hReversed s (List.mem_cons_of_mem _ hMem)

theorem goUp_subset (done : List (List Char)) : goUp done ⊆ done := by
  cases done with
  | nil => exact List.Subset.refl _
  | cons seg done =>
    show (if isDrive seg = true then seg :: done else done) ⊆ _
    split
    · exact List.Subset.refl _
    · exact List.subset_cons_self _ _

theorem dropEmpty_subset (segs : List (List Char)) : dropEmpty segs ⊆ segs := by
  fun_induction dropEmpty segs with
  | case1 => exact List.Subset.refl _
  | case2 => exact List.Subset.refl _
  | case3 segs _ ih => exact List.subset_cons_of_subset _ ih
  | case4 => exact List.Subset.refl _

namespace Written

variable (hP : Written P)

include hP

/-- Walking leaves what was written before, and what it does not walk along. -/
theorem walk (hDone : ∀ seg ∈ done, P kind seg)
    (hSegs : ∀ seg ∈ segs, isDoubleDot seg = false → isSingleDot seg = false → P kind seg) :
    ∀ seg ∈ walk kind done segs, P kind seg := by
  fun_induction Url.walk kind done segs with
  | case1 done => exact hDone
  | case2 done seg segs _ _ ih =>
    have hUp : ∀ s ∈ goUp done, P kind s := fun s hMem => hDone s (goUp_subset done hMem)
    refine ih ?_ (List.forall_mem_cons.mp hSegs).2
    split
    · exact List.forall_mem_cons.mpr ⟨hP.nil kind, hUp⟩
    · exact hUp
  | case3 done seg segs _ _ _ ih =>
    refine ih ?_ (List.forall_mem_cons.mp hSegs).2
    split
    · exact List.forall_mem_cons.mpr ⟨hP.nil kind, hDone⟩
    · exact hDone
  | case4 done seg segs hUp hHere written ih =>
    obtain ⟨hSeg, hSegs⟩ := List.forall_mem_cons.mp hSegs
    have hSeg := hSeg (Bool.eq_false_iff.mpr hUp) (Bool.eq_false_iff.mpr hHere)
    refine ih (List.forall_mem_cons.mpr ⟨?_, hDone⟩) hSegs
    unfold written
    split
    · next letter =>
      split
      · next hFile =>
        obtain rfl := hFile.1
        exact hP.drive hSeg
      · exact hSeg
    · exact hSeg

theorem pathFrom (hDone : ∀ seg ∈ done, P kind seg) (text : List Char) :
    (pathFrom kind done text).All (P kind) := by
  have hPieces : ∀ seg ∈ (Chars.splitAt (isSlash kind) text).map (percentEncode pathSet),
      isDoubleDot seg = false → isSingleDot seg = false → P kind seg := by
    intro seg hMem
    obtain ⟨piece, hPiece, rfl⟩ := List.mem_map.mp hMem
    exact hP.piece (Chars.not_mem_splitAt hPiece)
  have hWalked := hP.walk hDone hPieces
  show ∀ seg ∈ (if kind = .file then _ else _), P kind seg
  intro seg hMem
  split at hMem
  · exact hWalked seg (List.mem_reverse.mp (dropEmpty_subset _ hMem))
  · exact hWalked seg (List.mem_reverse.mp hMem)

theorem pathAfterHost (text : List Char) : (pathAfterHost kind text).All (P kind) := by
  have hRoot : ∀ seg ∈ ([] : List (List Char)), P kind seg := fun _ hMem => nomatch hMem
  unfold Url.pathAfterHost
  split
  · split
    · exact hP.pathFrom hRoot _
    · exact hRoot
  · split
    · exact hP.pathFrom hRoot _
    · exact hP.pathFrom hRoot _

end Written

/-! ### Authorities -/

theorem cutUserinfo_subset (kind : Kind) (cs : List Char) : (cutUserinfo kind cs).2 ⊆ cs := by
  unfold cutUserinfo
  dsimp only
  split
  · next userinfo host hCut =>
    obtain ⟨c, hFront, -, -⟩ := Chars.exists_of_cutLast? hCut
    have hText : cs = (userinfo ++ c :: host) ++ (cutBefore (endsAuthority kind) cs).2 :=
      hFront ▸ (List.takeWhile_append_dropWhile).symm
    intro d hMem
    rw [hText]
    rcases List.mem_append.mp hMem with hHost | hBack
    · exact List.mem_append_left _ (List.mem_append_right _ (List.mem_cons_of_mem _ hHost))
    · exact List.mem_append_right _ hBack
  · exact List.Subset.refl _

theorem cutHost_subset (kind : Kind) (inside : Bool) (cs : List Char) :
    (cutHost kind inside cs).2 ⊆ cs := by
  induction cs generalizing inside with
  | nil => exact List.Subset.refl _
  | cons c cs ih =>
    unfold cutHost
    split
    · exact List.Subset.refl _
    · exact List.subset_cons_of_subset _ (ih _)

theorem readPort_subset {n m : Nat} {rest : List Char} (hRead : readPort n cs = .ok (m, rest)) :
    rest ⊆ cs := by
  induction cs generalizing n with
  | nil =>
    cases hRead
    exact List.Subset.refl _
  | cons c cs ih =>
    unfold readPort at hRead
    split at hRead
    · dsimp only at hRead
      split at hRead
      · cases hRead
      · exact List.subset_cons_of_subset _ (ih hRead)
    · split at hRead
      · cases hRead
        exact List.Subset.refl _
      · cases hRead

theorem portAndRest_subset {scheme rest : List Char} {port : Option Nat}
    (hRead : portAndRest scheme cs = .ok (port, rest)) : rest ⊆ cs := by
  unfold portAndRest at hRead
  split at hRead
  · next ds =>
    cases hPort : readPort 0 ds with
    | error e =>
      rw [hPort] at hRead
      cases hRead
    | ok read =>
      rw [hPort] at hRead
      cases hRead
      exact List.subset_cons_of_subset _ (readPort_subset hPort)
  · cases hRead
    exact List.Subset.refl _

/-- An authority is followed by a path of its own, which is a part of the text. -/
theorem path_of_afterSlashes {scheme : List Char} {u : Url} (hRead : afterSlashes scheme cs = .ok u) :
    u.scheme = scheme ∧ ∃ text ⊆ cs, u.path = pathAfterHost (Kind.of scheme) text := by
  unfold afterSlashes at hRead
  simp only [bind, Except.bind, pure, Except.pure, throw, throwThe, MonadExceptOf.throw] at hRead
  -- Where nothing is refused the path comes last.
  repeat' split at hRead
  all_goals cases hRead
  next hPort _ =>
    refine ⟨rfl, _, ?_, rfl⟩
    -- Each part is cut from what is left after the one before it.
    refine List.Subset.trans (List.takeWhile_subset _) ?_
    refine List.Subset.trans (portAndRest_subset hPort) ?_
    exact List.Subset.trans (cutHost_subset _ _ _) (cutUserinfo_subset _ _)

theorem Kind.of_eq_file {scheme : List Char} : Kind.of scheme = .file ↔ scheme = fileScheme := by
  unfold Kind.of
  split
  · simp_all [fileScheme]
  · split <;> simp_all [fileScheme]

namespace Written

variable (hP : Written P)

include hP

theorem afterSlashes {scheme : List Char} {u : Url} (hRead : afterSlashes scheme cs = .ok u) :
    u.Holds P := by
  obtain ⟨hScheme, text, -, hPath⟩ := path_of_afterSlashes hRead
  show u.path.All (P (Kind.of u.scheme))
  rw [hPath, hScheme]
  exact hP.pathAfterHost text

/-! ### Files -/

theorem fileUrl (host : Option Host) (hDone : ∀ seg ∈ done, P .file seg) (cs : List Char) :
    (fileUrl host done cs).Holds P := hP.pathFrom hDone _

/-- The path of a file with a host begins at the root. -/
theorem fileWithHost {u : Url} (hRead : fileWithHost cs = .ok u) : u.kind = .file ∧ u.Holds P := by
  unfold Url.fileWithHost at hRead
  simp only [bind, Except.bind, pure, Except.pure] at hRead
  repeat' split at hRead
  all_goals cases hRead
  all_goals exact ⟨rfl, hP.pathFrom (by simp) _⟩

/-- A file is read against a file, and starts from its root or from its directory. -/
theorem readFile {base : Option Url} {u : Url}
    (hBase : ∀ b, base = some b → b.kind = .file ∧ b.Holds P) (hRead : readFile base cs = .ok u) :
    u.kind = .file ∧ u.Holds P := by
  have hRoot : ∀ seg ∈ ([] : List (List Char)), P .file seg := fun _ hMem => nomatch hMem
  have hFromRoot : ∀ cs, readFile.fromRoot base cs = .ok u → u.kind = .file ∧ u.Holds P := by
    intro cs hRead
    unfold readFile.fromRoot at hRead
    split at hRead
    · next b _ =>
      obtain ⟨hKind, hHolds⟩ := hBase b rfl
      repeat' split at hRead
      all_goals cases hRead
      · exact ⟨rfl, hP.fileUrl _ hRoot _⟩
      · next seg parts hPath _ =>
        -- The drive of the base is a segment of its path.
        have hParts : ∀ s ∈ seg :: parts, P .file s := by
          unfold Holds at hHolds
          rwa [hPath, hKind] at hHolds
        refine ⟨rfl, hP.fileUrl _ (fun s hMem => ?_) _⟩
        obtain rfl := List.mem_singleton.mp hMem
        exact hParts s List.mem_cons_self
      all_goals exact ⟨rfl, hP.fileUrl _ hRoot _⟩
    · cases hRead
      exact ⟨rfl, hP.fileUrl _ hRoot _⟩
  have hRelative : readFile.relative base cs = .ok u → u.kind = .file ∧ u.Holds P := by
    intro hRead
    unfold readFile.relative at hRead
    split at hRead
    · cases hRead
      exact ⟨rfl, hP.fileUrl _ hRoot _⟩
    · next b _ =>
      obtain ⟨hKind, hHolds⟩ := hBase b rfl
      repeat' split at hRead
      all_goals cases hRead
      -- Without a path the one of the base stays.
      · exact ⟨hKind, hHolds⟩
      · exact ⟨hKind, hHolds⟩
      · exact ⟨hKind, hHolds⟩
      · exact ⟨rfl, hP.fileUrl _ hRoot _⟩
      · exact ⟨rfl, hP.fileUrl _ (hKind ▸ Path.All.directory hHolds .file) _⟩
  unfold Url.readFile at hRead
  repeat' split at hRead
  · exact hP.fileWithHost hRead
  · exact hFromRoot _ hRead
  · exact hRelative hRead
  · exact hFromRoot _ hRead
  · exact hRelative hRead
  · exact hRelative hRead

/-! ### References -/

/-- A reference to a base keeps the scheme of the base. -/
theorem relative {base u : Url} (hBase : base.Holds P) (hRead : relative base cs = .ok u) :
    u.scheme = base.scheme ∧ u.Holds P := by
  unfold Url.relative at hRead
  simp only at hRead
  repeat' split at hRead
  · cases hRead
    exact ⟨rfl, hBase⟩
  · cases hRead
    exact ⟨rfl, hBase⟩
  · cases hRead
    exact ⟨rfl, hBase⟩
  · exact ⟨(path_of_afterSlashes hRead).1, hP.afterSlashes hRead⟩
  · exact ⟨(path_of_afterSlashes hRead).1, hP.afterSlashes hRead⟩
  · cases hRead
    exact ⟨rfl, hP.pathFrom (by simp) _⟩
  · cases hRead
    exact ⟨rfl, hP.pathFrom (Path.All.directory hBase _) _⟩

theorem plainUrl {scheme : List Char} {u : Url} (hKind : Kind.of scheme = .plain)
    (hRead : plainUrl scheme cs = .ok u) : u.Keeps P := by
  unfold Url.plainUrl at hRead
  split at hRead
  · exact Or.inl (hP.afterSlashes hRead)
  · dsimp only at hRead
    split at hRead
    · cases hRead
      refine Or.inl ?_
      show Path.All (P (Kind.of scheme)) _
      rw [hKind]
      exact hP.pathFrom (by simp) _
    · cases hRead
      exact Or.inr ⟨rfl, hKind⟩

theorem withScheme {base : Option Url} {scheme : List Char} {u : Url}
    (hBase : ∀ b, base = some b → b.Keeps P) (hRead : withScheme base scheme cs = .ok u) :
    u.Keeps P := by
  unfold Url.withScheme at hRead
  split at hRead
  · refine Or.inl (hP.readFile (fun b hFile => ?_) hRead).2
    obtain ⟨hIs, hScheme⟩ := Option.filter_eq_some_iff.mp hFile
    have hKind : b.kind = .file := Kind.of_eq_file.mpr (beq_iff_eq.mp hScheme)
    exact ⟨hKind, (hBase b hIs).holds_of_kind (by simp [hKind])⟩
  · next hKind => exact hP.plainUrl hKind hRead
  · next hSpecial =>
    dsimp only at hRead
    split at hRead
    · next b =>
      split at hRead
      · next hSame =>
        have hKind : b.kind = .special := by rw [kind, hSame.2, hSpecial]
        exact Or.inl (hP.relative ((hBase b rfl).holds_of_kind (by simp [hKind])) hRead).2
      · exact Or.inl (hP.afterSlashes hRead)
    · exact Or.inl (hP.afterSlashes hRead)

/-- A reference without a scheme, to a base that something can be resolved against, keeps the kind
    of the base. -/
theorem reference {b u : Url} (hBase : b.Holds P)
    (hRead : (if b.kind = .file then Url.readFile (some b) cs else Url.relative b cs) = .ok u) :
    u.kind = b.kind ∧ u.Holds P := by
  split at hRead
  · next hKind =>
    rw [hKind]
    refine hP.readFile (fun b' hIs => ?_) hRead
    obtain rfl := Option.some.inj hIs
    exact ⟨hKind, hBase⟩
  · obtain ⟨hScheme, hRest⟩ := hP.relative hBase hRead
    exact ⟨congrArg Kind.of hScheme, hRest⟩

/-- **What reading writes stays so when something is read against it.** -/
theorem readFrom {base : Option Url} {text : List Char} {u : Url}
    (hBase : ∀ b, base = some b → b.Keeps P) (hRead : readFrom base text = .ok u) : u.Keeps P := by
  unfold Url.readFrom at hRead
  dsimp only at hRead
  split at hRead
  · exact hP.withScheme hBase hRead
  · split at hRead
    · cases hRead
    · next b =>
      split at hRead
      · cases hRead
        exact hBase b rfl
      · split at hRead
        · cases hRead
        · next hOpaque =>
          have hHolds := (hBase b rfl).holds (Bool.eq_false_iff.mpr hOpaque)
          exact Or.inl (hP.reference hHolds hRead).2

theorem parse {text : String} {u : Url} (hParse : parse text = .ok u) : u.Keeps P :=
  hP.readFrom (fun _ hIs => by cases hIs) hParse

theorem join {base u : Url} {text : String} (hBase : base.Keeps P)
    (hJoin : base.join text = .ok u) : u.Keeps P :=
  hP.readFrom (fun _ hIs => Option.some.inj hIs ▸ hBase) hJoin

end Written

/-! ## Section 3: Clean paths -/

/-- All of these are segments. -/
def AreSegments (kind : Kind) (segs : List (List Char)) : Prop := ∀ seg ∈ segs, IsSegment kind seg

theorem AreSegments.subset {segs' : List (List Char)} (hSegs : AreSegments kind segs)
    (hSub : segs' ⊆ segs) : AreSegments kind segs' := fun s hMem => hSegs s (hSub hMem)

/-- The path is a list of segments. -/
def Path.IsClean (kind : Kind) : Path → Prop
  | .segments parts => AreSegments kind parts
  | .opaque_ _ => False

theorem Path.IsClean.directory {path : Path} (hClean : path.IsClean kind) (kind' : Kind) :
    AreSegments kind (path.directory kind') := by
  refine Path.All.directory (P := IsSegment kind) ?_ kind'
  cases path with
  | segments parts => exact hClean
  | opaque_ text => exact hClean

/-- The path holds visible characters, and between its slashes no separator. -/
def IsClean (u : Url) : Prop := u.path.IsClean u.kind

/-- Everything that is read has such a path, but for URLs that are not special, whose paths may be
    opaque. -/
def IsRead (u : Url) : Prop := u.IsClean ∨ u.isOpaque = true ∧ u.kind = .plain

theorem written_isSegment : Written IsSegment where
  nil _ := isSegment_nil
  piece hCut _ _ := isSegment_percentEncode hCut
  drive hDrive := by
    intro c hMem
    rcases List.mem_cons.mp hMem with rfl | hColon
    · exact hDrive c List.mem_cons_self
    · obtain rfl := List.mem_singleton.mp hColon
      exact ⟨by decide, isSlash_eq_false (by decide) (by decide)⟩

theorem IsClean.isOpaque {u : Url} (hClean : u.IsClean) : u.isOpaque = false :=
  Holds.isOpaque (P := IsSegment) hClean

theorem IsRead.isClean_of_kind {u : Url} (hRead : u.IsRead) (hKind : u.kind ≠ .plain) :
    u.IsClean := Keeps.holds_of_kind (P := IsSegment) hRead hKind

theorem isRead_of_parse {text : String} {u : Url} (hParse : parse text = .ok u) : u.IsRead :=
  written_isSegment.parse hParse

theorem IsRead.join {base u : Url} {text : String} (hRead : base.IsRead)
    (hJoin : base.join text = .ok u) : u.IsRead := written_isSegment.join hRead hJoin

end Bundleless.Url
