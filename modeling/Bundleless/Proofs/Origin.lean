import Bundleless.Proofs.Conduct
import Bundleless.Proofs.Directories
import Bundleless.Proofs.UrlPaths

/-! # The origin of local modules

    A candidate is asked for by its path, with a slash before it, read
    against the page. That stays on the origin of the page unless the path
    begins with a slash itself, or with a backslash: two of these begin a
    host. Base paths have no slashes at their ends, and a backslash only
    where the directory led away from the web. But the base path of the root
    of the site is empty, and the candidates for its index begin with a
    slash; so these are asked for at hosts of their own.
-/

namespace Bundleless

/-! ## Section 1: Reading below the root -/

namespace Url

variable {c : Char} {cs : List Char} {base u : Url}

/-- The scheme, the host and the port, which is none where it is the scheme's own. -/
def origin (u : Url) : List Char × Option Host × Option Nat :=
  (u.scheme, u.host?, u.authority.bind (·.port))

/-- The scheme is the one of the web, plain or encrypted. -/
def IsHttp (u : Url) : Prop := u.scheme = "http".toList ∨ u.scheme = "https".toList

theorem IsHttp.kind (hHttp : u.IsHttp) : u.kind = .special := by
  unfold Url.kind
  rcases hHttp with hScheme | hScheme
  · rw [hScheme]
    decide
  · rw [hScheme]
    decide

theorem not_isPadding (hVisible : isVisible c = true) : isPadding c = false :=
  decide_eq_false (Nat.not_le.mpr (of_decide_eq_true hVisible))

theorem not_isLineBreak (hVisible : isVisible c = true) : isLineBreak c = false := by
  have hNe : ∀ d, isVisible d = false → c ≠ d := fun d hHidden hEq => by
    rw [hEq, hHidden] at hVisible
    cases hVisible
  simp [isLineBreak, hNe '\t' (by decide), hNe '\n' (by decide), hNe '\r' (by decide)]

/-- The first character stays if it can be seen. -/
theorem significant_cons (hVisible : isVisible c = true) (cs : List Char) :
    ∃ rest, significant (c :: cs) = c :: rest := by
  refine ⟨(Chars.dropEndWhile isPadding cs).filter (!isLineBreak ·), ?_⟩
  unfold significant Chars.trimWhile
  rw [List.dropWhile_cons_of_neg (by simp [not_isPadding hVisible]),
    Chars.dropEndWhile_cons_of_neg (not_isPadding hVisible),
    List.filter_cons_of_pos (by simp [not_isLineBreak hVisible])]

/-- Everything stays if it can be seen. -/
theorem significant_eq_self (hVisible : ∀ c ∈ cs, isVisible c = true) : significant cs = cs := by
  have hNone : ∀ xs : List Char, (∀ c ∈ xs, isVisible c = true) → xs.dropWhile isPadding = xs := by
    intro xs hAll
    cases xs with
    | nil => rfl
    | cons c xs =>
      exact List.dropWhile_cons_of_neg (by simp [not_isPadding (hAll c List.mem_cons_self)])
  unfold significant Chars.trimWhile Chars.dropEndWhile
  rw [hNone cs hVisible, hNone cs.reverse fun c hMem => hVisible c (List.mem_reverse.mp hMem),
    List.reverse_reverse]
  exact List.filter_eq_self.mpr fun c hMem => by simp [not_isLineBreak (hVisible c hMem)]

/-- A text with a dot or a slash before it is a reference. -/
theorem readFrom_of_local {text rest : List Char} (hText : significant text = c :: rest)
    (hLocal : c = '.' ∨ c = '/') : readFrom (some base) text =
      if base.isOpaque then .error .opaqueBase
      else if base.kind = .file then readFile (some base) (c :: rest)
      else relative base (c :: rest) := by
  unfold readFrom
  rw [hText]
  rcases hLocal with rfl | rfl
  · rfl
  · rfl

/-- **What is read below the root stays on the origin**, unless it begins with a second slash. -/
theorem origin_of_join_root {path : String} (hKind : base.kind = .special)
    (hVisible : ∀ c ∈ path.toList, isVisible c = true)
    (hHead : path.toList.head?.any isAnySlash = false) (hJoin : base.join ("/" ++ path) = .ok u) :
    u.origin = base.origin := by
  have hText : significant ("/" ++ path).toList = '/' :: path.toList := by
    have hChars : ("/" ++ path).toList = '/' :: path.toList := by simp
    rw [hChars]
    refine significant_eq_self fun c hMem => ?_
    rcases List.mem_cons.mp hMem with rfl | hMem
    · decide
    · exact hVisible c hMem
  unfold join at hJoin
  rw [readFrom_of_local hText (Or.inr rfl)] at hJoin
  split at hJoin
  · cases hJoin
  · rw [if_neg (by simp [hKind])] at hJoin
    -- The reference has one slash before it.
    have hRelative : relative base ('/' :: path.toList) =
        .ok { base with
          path := pathFrom base.kind [] (cutBefore endsPath path.toList).1
          query := (queryAndFragment base.kind (cutBefore endsPath path.toList).2).1
          fragment := (queryAndFragment base.kind (cutBefore endsPath path.toList).2).2 } := by
      show (if path.toList.head?.any isAnySlash = true then _ else _) = _
      rw [if_neg (by simp [hHead])]
      rfl
    obtain rfl := Except.ok.inj (hRelative.symm.trans hJoin)
    rfl

/-- With two slashes before it a name is read as a host. -/
theorem exists_join_index (hHttp : base.IsHttp) (hOpaque : base.isOpaque = false) {name : String}
    (hName : name = "index.tsx" ∨ name = "index.ts") :
    ∃ u, base.join ("/" ++ ("/" ++ name)) = .ok u ∧ u.host? = some (.domain name.toList) := by
  obtain ⟨u, hRead, hHost⟩ : ∃ u, afterSlashes base.scheme name.toList = .ok u ∧
      u.host? = some (.domain name.toList) := by
    have hAll : ∀ scheme ∈ ["http".toList, "https".toList], ∀ name ∈ ["index.tsx", "index.ts"],
        (afterSlashes scheme name.toList).toOption.bind host? = some (.domain name.toList) := by
      decide
    have hScheme : base.scheme ∈ ["http".toList, "https".toList] := by simpa [IsHttp] using hHttp
    have hOne := hAll base.scheme hScheme name (by simpa using hName)
    cases hRead : afterSlashes base.scheme name.toList with
    | error e => simp [hRead, Except.toOption] at hOne
    | ok u => exact ⟨u, rfl, by simpa [hRead, Except.toOption] using hOne⟩
  refine ⟨u, ?_, hHost⟩
  have hText : significant ("/" ++ ("/" ++ name)).toList = '/' :: '/' :: name.toList := by
    rcases hName with rfl | rfl
    · decide
    · decide
  unfold join
  rw [readFrom_of_local hText (Or.inr rfl), if_neg (by simp [hOpaque]),
    if_neg (by simp [hHttp.kind])]
  exact hRead

/-- What a local specifier is read as keeps the kind of the base, and its path what is written. -/
theorem Written.of_local {P : Kind → List Char → Prop} (hP : Written P) {specifier : String}
    (hLocal : LocalPath.isLocal specifier = true) (hBase : base.Keeps P)
    (hJoin : base.join specifier = .ok u) : u.kind = base.kind ∧ u.Holds P := by
  obtain ⟨d, rest, hText, hFirst⟩ : ∃ d rest, specifier.toList = d :: rest ∧ (d = '.' ∨ d = '/') := by
    have hStarts : ∀ d : Char, Chars.startsWith [d] specifier.toList = true →
        ∃ rest, specifier.toList = d :: rest := by
      intro d hStarts
      cases hChars : specifier.toList with
      | nil => simp [hChars, Chars.startsWith, Chars.stripPrefix?] at hStarts
      | cons e rest =>
        have hEq : d = e := by
          simpa [hChars, Chars.startsWith, Chars.stripPrefix?] using hStarts
        exact ⟨rest, hEq ▸ rfl⟩
    rcases Bool.or_eq_true_iff.mp hLocal with hDot | hSlash
    · obtain ⟨rest, hText⟩ := hStarts '.' hDot
      exact ⟨'.', rest, hText, Or.inl rfl⟩
    · obtain ⟨rest, hText⟩ := hStarts '/' hSlash
      exact ⟨'/', rest, hText, Or.inr rfl⟩
  have hVisible : isVisible d = true := by
    rcases hFirst with rfl | rfl
    · decide
    · decide
  obtain ⟨rest', hSignificant⟩ := significant_cons hVisible rest
  unfold Url.join at hJoin
  rw [hText, readFrom_of_local hSignificant hFirst] at hJoin
  split at hJoin
  · cases hJoin
  · next hOpaque =>
    exact hP.reference (hBase.holds (Bool.eq_false_iff.mpr hOpaque)) hJoin

/-- What a local specifier is read as has a clean path, and the kind of the base. -/
theorem isClean_of_local {specifier : String} (hLocal : LocalPath.isLocal specifier = true)
    (hBase : base.IsRead) (hJoin : base.join specifier = .ok u) :
    u.kind = base.kind ∧ u.IsClean := written_isSegment.of_local hLocal hBase hJoin

/-- A clean path is written with visible characters, and of the separators with slashes only. -/
theorem IsClean.chars (hClean : u.IsClean) : ∀ c ∈ u.path.chars,
    isVisible c = true ∧ (c = '/' ∨ isSlash u.kind c = false) := by
  unfold IsClean at hClean
  cases hPath : u.path with
  | opaque_ text => rw [hPath] at hClean; exact hClean.elim
  | segments parts =>
    rw [hPath] at hClean
    intro c hMem
    obtain ⟨seg, hSeg, hMem⟩ := List.mem_flatMap.mp hMem
    rcases List.mem_cons.mp hMem with rfl | hMem
    · exact ⟨by decide, Or.inl rfl⟩
    · obtain ⟨hVisible, hNot⟩ := AreSegments.subset hClean (List.Subset.refl _) seg hSeg c hMem
      exact ⟨hVisible, Or.inr hNot⟩

end Url

/-- A reference is read against the URL of the page. -/
theorem Page.join_eq_ok_iff {page : Page} {reference : String} {u : Url} :
    page.join reference = .ok u ↔ page.location.join reference = .ok u := by
  unfold Page.join
  cases page.location.join reference with
  | ok v => simp
  | error e => simp

/-! ## Section 2: Base paths -/

namespace LocalPath

variable {page : Page} {specifier dir basePath : String}

theorem exists_of_resolve (hResolve : resolve specifier dir page = .ok basePath) :
    ∃ base u, page.join (dirReference dir) = .ok base ∧ base.join specifier = .ok u ∧
      basePath = trimDir u.pathText := by
  unfold resolve at hResolve
  cases hBase : page.join (dirReference dir) with
  | error e => rw [hBase] at hResolve; cases hResolve
  | ok base =>
    rw [hBase] at hResolve
    cases hJoin : base.join specifier with
    | error e =>
      simp only [bind, Except.bind, hJoin, throw, throwThe, MonadExceptOf.throw] at hResolve
      cases hResolve
    | ok u =>
      simp only [bind, Except.bind, hJoin, pure, Except.pure] at hResolve
      cases hResolve
      exact ⟨base, u, rfl, hJoin, rfl⟩

/-- What a base path can be: its characters can be seen and it has no slashes at its ends; and where
    it has a backslash, the directory is one of another kind of URL. -/
theorem resolve_clean (hPage : page.location.IsRead) (hLocal : isLocal specifier = true)
    (hResolve : resolve specifier dir page = .ok basePath) :
    trimDir basePath = basePath ∧ (∀ c ∈ basePath.toList, Url.isVisible c = true) ∧
      ('\\' ∈ basePath.toList → ∃ base, page.join (dirReference dir) = .ok base ∧
        base.kind = .plain) := by
  obtain ⟨base, u, hBase, hJoin, rfl⟩ := exists_of_resolve hResolve
  have hBaseRead : base.IsRead := hPage.join (Page.join_eq_ok_iff.mp hBase)
  obtain ⟨hKind, hClean⟩ := Url.isClean_of_local hLocal hBaseRead hJoin
  have hSub : (trimDir u.pathText).toList ⊆ u.path.chars := by
    rw [trimDir, Text.trimSlashes, Text.toList_via, Url.pathText, String.toList_ofList]
    exact Chars.trimWhile_subset _
  refine ⟨trimDir_trimDir _, fun c hMem => (hClean.chars c (hSub hMem)).1, fun hMem => ?_⟩
  rcases (hClean.chars _ (hSub hMem)).2 with hSlash | hNot
  · exact absurd hSlash (by decide)
  · -- In a special URL it would have been a separator.
    refine ⟨base, hBase, ?_⟩
    rw [← hKind]
    cases hIs : u.kind with
    | plain => rfl
    | special => rw [hIs] at hNot; cases hNot
    | file => rw [hIs] at hNot; cases hNot

theorem head_of_trimmed (hTrimmed : trimDir basePath = basePath) {c : Char} {rest : List Char}
    (hChars : basePath.toList = c :: rest) : c ≠ '/' := by
  have hStarts := startsWith_trimDir basePath
  rw [hTrimmed] at hStarts
  rintro rfl
  simp [Text.startsWith, Chars.startsWith, Chars.stripPrefix?, hChars] at hStarts

theorem dropEndSlashes_of_trimmed (hTrimmed : trimDir basePath = basePath) :
    Text.dropEndSlashes basePath = basePath := by
  have hChars : Chars.trimWhile (· == '/') basePath.toList = basePath.toList := by
    rw [trimDir, Text.trimSlashes] at hTrimmed
    simpa using congrArg String.toList hTrimmed
  refine String.toList_inj.mp ?_
  rw [Text.dropEndSlashes, Text.toList_via, ← hChars]
  exact Chars.dropEndWhile_dropEndWhile _

/-- A candidate begins with the base path. -/
theorem exists_ending {extensions : List String} {path : String}
    (hTrimmed : trimDir basePath = basePath) (hMem : path ∈ candidates extensions basePath) :
    ∃ ending, path = basePath ++ ending ∧ (ending = "" ∨ ending ∈ extensions ∨
      ∃ e ∈ extensions, ending = "/index" ++ e) := by
  unfold candidates at hMem
  rw [dropEndSlashes_of_trimmed hTrimmed] at hMem
  have hMem := (List.mem_filter.mp (Distinct.mem_firsts.mp hMem)).1
  rcases List.mem_cons.mp hMem with rfl | hMem
  · exact ⟨"", by simp, Or.inl rfl⟩
  · split at hMem
    · cases hMem
    · rcases List.mem_append.mp hMem with hMem | hMem
      · obtain ⟨e, he, rfl⟩ := List.mem_map.mp hMem
        exact ⟨e, rfl, Or.inr (Or.inl he)⟩
      · obtain ⟨e, he, rfl⟩ := List.mem_map.mp hMem
        exact ⟨"/index" ++ e, by rw [String.append_assoc], Or.inr (Or.inr ⟨e, he, rfl⟩)⟩

/-- Candidates can be seen if the extensions can. -/
theorem visible_of_candidate {extensions : List String} {path : String}
    (hExtensions : ∀ e ∈ extensions, ∀ c ∈ e.toList, Url.isVisible c = true)
    (hTrimmed : trimDir basePath = basePath)
    (hVisible : ∀ c ∈ basePath.toList, Url.isVisible c = true)
    (hMem : path ∈ candidates extensions basePath) :
    ∀ c ∈ path.toList, Url.isVisible c = true := by
  obtain ⟨ending, rfl, hEnding⟩ := exists_ending hTrimmed hMem
  intro c hc
  rw [String.toList_append] at hc
  rcases List.mem_append.mp hc with hBase | hEnd
  · exact hVisible c hBase
  · rcases hEnding with rfl | hExtension | ⟨e, he, rfl⟩
    · cases hEnd
    · exact hExtensions ending hExtension c hEnd
    · rw [String.toList_append] at hEnd
      rcases List.mem_append.mp hEnd with hIndex | hEnd
      · have hAll : "/index".toList.all Url.isVisible = true := by decide
        exact List.all_eq_true.mp hAll c hIndex
      · exact hExtensions e he c hEnd

end LocalPath

namespace Loader

variable {l : Loader} {basePath : String} {u : Url}

/-- The URL is the one of a candidate. -/
def MayAskFor (l : Loader) (basePath : String) (u : Url) : Prop :=
  ∃ path ∈ LocalPath.candidates l.extensions basePath, l.page.join ("/" ++ path) = .ok u

/-- **All candidates of a base path are on the origin of the page**, if there is something in it and
    a backslash does not come first. -/
theorem origin_of_asked (hHttp : l.page.location.IsHttp)
    (hExtensions : ∀ e ∈ l.extensions, ∀ c ∈ e.toList, Url.isVisible c = true)
    (hTrimmed : LocalPath.trimDir basePath = basePath)
    (hVisible : ∀ c ∈ basePath.toList, Url.isVisible c = true) (hSome : basePath ≠ "")
    (hNot : Text.startsWith "\\" basePath = false) (hAsked : l.MayAskFor basePath u) :
    u.origin = l.page.location.origin := by
  obtain ⟨path, hMem, hJoin⟩ := hAsked
  refine Url.origin_of_join_root hHttp.kind
    (LocalPath.visible_of_candidate hExtensions hTrimmed hVisible hMem) ?_ (Page.join_eq_ok_iff.mp hJoin)
  obtain ⟨ending, rfl, -⟩ := LocalPath.exists_ending hTrimmed hMem
  cases hChars : basePath.toList with
  | nil => exact absurd (String.toList_inj.mp (hChars.trans String.toList_empty.symm)) hSome
  | cons c rest =>
    have hSlash : c ≠ '/' := LocalPath.head_of_trimmed hTrimmed hChars
    have hBackslash : c ≠ '\\' := by
      rintro rfl
      simp [Text.startsWith, Chars.startsWith, Chars.stripPrefix?, hChars] at hNot
    simp [hChars, Url.isAnySlash, hSlash, hBackslash]

/-- The index of the root is asked for at a host of its own. -/
theorem exists_asked_index (hHttp : l.page.location.IsHttp) (hRead : l.page.location.IsRead)
    (hExtensions : l.extensions = ({} : Settings).extensions) {name : String}
    (hName : name = "index.tsx" ∨ name = "index.ts") :
    ∃ u, l.MayAskFor "" u ∧ u.host? = some (.domain name.toList) := by
  have hClean := hRead.isClean_of_kind (by simp [hHttp.kind])
  obtain ⟨u, hJoin, hHost⟩ := Url.exists_join_index hHttp hClean.isOpaque hName
  refine ⟨u, ⟨"/" ++ name, ?_, ?_⟩, hHost⟩
  · rw [hExtensions]
    rcases hName with rfl | rfl
    · decide
    · decide
  · exact Page.join_eq_ok_iff.mpr hJoin

/-- **Something of the root of the site is asked for on another origin**, whatever the page. -/
theorem exists_asked_elsewhere (hHttp : l.page.location.IsHttp) (hRead : l.page.location.IsRead)
    (hExtensions : l.extensions = ({} : Settings).extensions) :
    ∃ u, l.MayAskFor "" u ∧ u.origin ≠ l.page.location.origin := by
  obtain ⟨u, hAsked, hHost⟩ := exists_asked_index hHttp hRead hExtensions (Or.inl rfl)
  obtain ⟨v, hAsked', hHost'⟩ := exists_asked_index hHttp hRead hExtensions (Or.inr rfl)
  -- Two hosts are not both the one of the page.
  by_cases hSame : u.origin = l.page.location.origin
  · refine ⟨v, hAsked', fun hSame' => ?_⟩
    have hOne : u.origin = v.origin := hSame.trans hSame'.symm
    have hHosts : u.host? = v.host? := congrArg (·.2.1) hOne
    rw [hHost, hHost'] at hHosts
    exact absurd hHosts (by decide)
  · exact ⟨u, hAsked, hSame⟩

end Loader

/-! ## Section 3: In runs -/

section Runs

variable {l : Loader} {h : Host} {w₀ w : World} {past : List Label} {basePath : String}

/-- In every run all that is asked for on the way to the base path are candidates, and they are on
    the origin of the page: they have its scheme, its host and its port. -/
def Loader.FetchesFromOrigin (l : Loader) (basePath : String) : Prop :=
  ∀ h w₀ past w, w₀.Fresh → World.Run h l.Asks w₀ past w →
    ∀ (t : TaskId) l' method url (next : Unit → Load Outcome), w.tasks[t]? = some ⟨⟨l', .resolve basePath⟩, .ask (.send method url) next⟩ →
      method = .get ∧ (∃ u, l.MayAskFor basePath u ∧ url = u.href) ∧
        ∀ u, l.MayAskFor basePath u → url = u.href → u.origin = l.page.location.origin

/-- What is asked for on the way to a base path are its candidates. -/
theorem World.Run.asked (hRun : World.Run h l.Asks w₀ past w) (hFresh : w₀.Fresh) {t : TaskId}
    {l' : Loader} {method : Method} {url : String}
    {next : (Op.send method url).Reply → Load Outcome}
    (hTask : w.tasks[t]? = some ⟨⟨l', .resolve basePath⟩, .ask (.send method url) next⟩) :
    method = .get ∧ ∃ u, l.MayAskFor basePath u ∧ url = u.href := by
  have hWork := World.workOf?_of_task hTask
  have hNew := hRun.le_of_work hFresh hWork fun d hTool => by cases hTool
  have hServes := hRun.serves hFresh hNew hWork
  obtain ⟨hGet, path, hMem, u, hJoin, hUrl⟩ := (hRun.obeys hTask hNew).allows basePath rfl
  rw [hServes.2] at hMem
  rw [hServes.1] at hJoin
  exact ⟨hGet, u, ⟨path, hMem, hJoin⟩, hUrl⟩

namespace Load

/-- Candidates that come before it are not found, and then it is asked for. -/
theorem goes_toSend {path : String} {u : Url} (all : List String) {rest : List String}
    (hMem : path ∈ rest) (hJoin : l.page.join ("/" ++ path) = .ok u) :
    ∃ next w', (fetchFirst l basePath all rest).run.Goes h w (.ask (.send .get u.href) next) w' ∧
      w'.tasks = w.tasks := by
  induction rest generalizing w with
  | nil => cases hMem
  | cons c rest ih =>
    by_cases hEq : c = path
    · subst hEq
      unfold fetchFirst
      rw [hJoin]
      exact ⟨_, w, .refl _ _, rfl⟩
    · have hMem : path ∈ rest := by simpa [Ne.symm hEq] using hMem
      unfold fetchFirst
      cases hOther : l.page.join ("/" ++ c) with
      | error e => exact ih hMem
      | ok v =>
        obtain ⟨next, w', hGoes, hTasks⟩ := ih (w := w.note (.requested .get v.href)) hMem
        exact ⟨next, w', .step (.perform rfl) (.step (.reply .get v.href (.ok ⟨404, ""⟩)) hGoes),
          hTasks⟩

/-- The first stage asks for each of its candidates, if none before it is found. -/
theorem goes_resolve_toSend {path : String} {u : Url}
    (hMem : path ∈ LocalPath.candidates l.extensions basePath)
    (hJoin : l.page.join ("/" ++ path) = .ok u) : ∃ next w',
    (Work.program ⟨l, .resolve basePath⟩).Goes h w (.ask (.send .get u.href) next) w' ∧
      w'.tasks = w.tasks := by
  obtain ⟨next, w', hGoes, hTasks⟩ := goes_toSend (l := l) (h := h) (w := w)
    (LocalPath.candidates l.extensions basePath) hMem hJoin
  have hFind : ∃ next, (findAndExecute l basePath).run.Goes h w
      (.ask (.send .get u.href) next) w' := by
    unfold findAndExecute fetchSource
    rw [ExceptT.run_bind]
    exact ⟨_, hGoes.bind _⟩
  obtain ⟨next, hFind⟩ := hFind
  have hStage : ∃ next, (thenEnd (findAndExecute l basePath) (.endResolve basePath)).Goes h w
      (.ask (.send .get u.href) next) w' := ⟨_, hFind.bind _⟩
  obtain ⟨next, hStage⟩ := hStage
  exact ⟨_, w', hStage.bind _, hTasks⟩

end Load

/-- **Whatever a request may ask for, in some run it does.** -/
theorem Loader.MayAskFor.exists_run {specifier dir : String} {u : Url}
    (hAsked : l.MayAskFor basePath u)
    (hResolve : LocalPath.resolve specifier dir l.page = .ok basePath) :
    ∃ (w : World) (t : TaskId) (next : Unit → Load Outcome),
      World.Leads (Site.host {}) l.Asks {} w ∧
      w.tasks[t]? = some ⟨⟨l, .resolve basePath⟩, .ask (.send .get u.href) next⟩ := by
  obtain ⟨path, hMem, hJoin⟩ := hAsked
  let w₁ : World := (World.start {} ⟨l, .load specifier dir⟩).2
  have h₁ : World.Leads (Site.host {}) l.Asks {} w₁ := .of_step (.start {} ⟨rfl, rfl, rfl⟩)
  -- Task 0 is the request, and task 1 the stage that it starts.
  obtain ⟨_, hGoes, hTasks, -, -⟩ :=
    Load.goes_load (h := Site.host {}) (w := w₁) hResolve rfl rfl rfl
  obtain ⟨w₂, h₂, -, hTasks₂⟩ := h₁.carry (t := 0) rfl hGoes
  rw [hTasks] at hTasks₂
  obtain ⟨next, w', hGoes, hSame⟩ :=
    Load.goes_resolve_toSend (h := Site.host {}) (w := w₂) hMem hJoin
  obtain ⟨w₃, h₃, -, hTasks₃⟩ := h₂.carry (t := 1) (by rw [hTasks₂]; rfl) hGoes
  refine ⟨w₃, 1, next, h₃, ?_⟩
  rw [hTasks₃, hSame, hTasks₂]
  rfl

namespace Loader

variable {specifier dir : String}

/-- The requests for a base path stay on the origin just when all of its candidates are there. -/
theorem fetchesFromOrigin_iff_asked
    (hResolve : LocalPath.resolve specifier dir l.page = .ok basePath) :
    l.FetchesFromOrigin basePath ↔
      ∀ u, l.MayAskFor basePath u → u.origin = l.page.location.origin := by
  constructor
  · intro hFetches u hAsked
    obtain ⟨w, t, next, ⟨past, hRun⟩, hTask⟩ := hAsked.exists_run hResolve
    exact (hFetches _ _ past w World.fresh_empty hRun t l .get u.href next hTask).2.2 u hAsked rfl
  · intro hAll h w₀ past w hFresh hRun t l' method url next hTask
    obtain ⟨hGet, hAsked⟩ := hRun.asked hFresh hTask
    exact ⟨hGet, hAsked, fun u hU _ => hAll u hU⟩

/-- **Local modules are fetched from the origin of the page just when the base path is not empty.**
    It may only begin with a backslash, and then be read as a host, where the directory is a URL of
    a scheme that is not special. -/
theorem fetchesFromOrigin_iff {href : String} (hPage : Url.parse href = .ok l.page.location)
    (hHttp : l.page.location.IsHttp) (hExtensions : l.extensions = ({} : Settings).extensions)
    (hLocal : LocalPath.isLocal specifier = true)
    (hResolve : LocalPath.resolve specifier dir l.page = .ok basePath) :
    (Text.startsWith "\\" basePath = false → (l.FetchesFromOrigin basePath ↔ basePath ≠ "")) ∧
      (Text.startsWith "\\" basePath = true →
        ∃ base, l.page.join (LocalPath.dirReference dir) = .ok base ∧ base.kind = .plain) := by
  have hRead := Url.isRead_of_parse hPage
  obtain ⟨hTrimmed, hVisible, hBackslash⟩ := LocalPath.resolve_clean hRead hLocal hResolve
  refine ⟨fun hNot => ?_, fun hStarts => hBackslash ?_⟩
  · rw [fetchesFromOrigin_iff_asked hResolve]
    constructor
    · rintro hAll rfl
      obtain ⟨u, hAsked, hElsewhere⟩ := exists_asked_elsewhere hHttp hRead hExtensions
      exact hElsewhere (hAll u hAsked)
    · intro hSome u hAsked
      have hDefault : ∀ e ∈ l.extensions, ∀ c ∈ e.toList, Url.isVisible c = true := by
        have hAll : ({} : Settings).extensions.all (·.toList.all Url.isVisible) = true := by decide
        rw [hExtensions]
        intro e he
        exact List.all_eq_true.mp (List.all_eq_true.mp hAll e he)
      exact origin_of_asked hHttp hDefault hTrimmed hVisible hSome hNot hAsked
  · cases hChars : basePath.toList with
    | nil => simp [Text.startsWith, Chars.startsWith, Chars.stripPrefix?, hChars] at hStarts
    | cons c rest =>
      have hIs : '\\' = c := by
        simpa [Text.startsWith, Chars.startsWith, Chars.stripPrefix?, hChars] using hStarts
      exact hIs ▸ List.mem_cons_self

/-- A module in a directory is fetched from the origin. -/
theorem fetchesFromOrigin_src : Url.parse "https://e.test/" = .ok Replay.loader.page.location ∧
    Replay.loader.page.location.IsHttp ∧ LocalPath.isLocal "./a" = true ∧
    LocalPath.resolve "./a" "src" Replay.loader.page = .ok "src/a" ∧
    Replay.loader.FetchesFromOrigin "src/a" := by
  have hPage : Url.parse "https://e.test/" = .ok Replay.loader.page.location :=
    eq_ok_of_toOption (by decide +kernel)
  have hHttp : Replay.loader.page.location.IsHttp := Or.inr rfl
  have hResolve : LocalPath.resolve "./a" "src" Replay.loader.page = .ok "src/a" :=
    eq_ok_of_toOption (by decide +kernel)
  have hIff := (fetchesFromOrigin_iff hPage hHttp rfl rfl hResolve).1 (by decide)
  exact ⟨hPage, hHttp, rfl, hResolve, hIff.mpr (by decide)⟩

/-- The root of the site is a local module too, and its index is asked for elsewhere. -/
theorem not_fetchesFromOrigin : ¬ ∀ specifier dir basePath, LocalPath.isLocal specifier = true →
    LocalPath.resolve specifier dir Replay.loader.page = .ok basePath →
      Replay.loader.FetchesFromOrigin basePath := by
  intro hAll
  have hResolve : LocalPath.resolve "/" "" Replay.loader.page = .ok "" :=
    eq_ok_of_toOption (by decide +kernel)
  obtain ⟨past, w, hRun, hNext⟩ := World.exists_run (Site.host {}) Replay.loader {}
    [.ask (.load "/" ""), .go 0 3, .go 1 1, .reply 1 Replay.missing, .go 1 1,
      .reply 1 Replay.missing, .go 1 1, .reply 1 Replay.missing, .go 1 1, .reply 1 Replay.missing]
    (fun x => x.2.workOf? 1 = some ⟨Replay.loader, .resolve ""⟩ ∧
      x.2.nextOp? 1 = some (.send .get "https://index.tsx/")) (by decide +kernel)
  obtain ⟨hWork, hNext⟩ := of_decide_eq_true hNext
  obtain ⟨work, next, hTask⟩ := World.exists_task_of_nextOp? hNext
  obtain rfl := Option.some.inj ((World.workOf?_of_task hTask).symm.trans hWork)
  obtain ⟨u, hJoin, hHref, hElsewhere⟩ : ∃ u, Replay.loader.page.join "//index.tsx" = .ok u ∧
      u.href = "https://index.tsx/" ∧ u.origin ≠ Replay.loader.page.location.origin := by
    refine ⟨{ Replay.loader.page.location with
      authority := some { host := some (.domain "index.tsx".toList) } }, ?_, ?_, ?_⟩
    · exact eq_ok_of_toOption (by decide +kernel)
    · decide +kernel
    · decide +kernel
  have hAsked : Replay.loader.MayAskFor "" u := ⟨"/index.tsx", by decide +kernel, hJoin⟩
  exact hElsewhere ((hAll "/" "" "" rfl hResolve _ _ past w World.fresh_empty hRun 1 _ _ _ next
    hTask).2.2 u hAsked hHref.symm)

end Loader

end Runs

end Bundleless
