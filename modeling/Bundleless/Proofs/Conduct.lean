import Bundleless.Proofs.RemotePrograms

/-! # The conduct of pieces of work

    What a piece of work does, told from its own history alone: whom it
    starts and whom it waits for, what it fetches and in which order, and
    what it keeps. Each operation is allowed by what the work has carried out
    before (`Work.Allows`), and what it comes to fits all of it
    (`Work.Ends`), whatever is answered. Section 4 reads both off in runs.
-/

namespace Bundleless

/-! ## Section 1: The rules -/

/-- The text that a reply brings, if it brings one. -/
def Reply.text? : Reply → Option String
  | .ok r => if Status.isSuccess r.status then some r.body else none
  | .error _ => none

namespace History

variable (hist : History)

/-- The URL was asked for, and this came of it. -/
def Fetched (url : String) (text : Option String) : Prop :=
  ∃ r : Reply, ⟨.reply .get url, r⟩ ∈ hist ∧ Reply.text? r = text

/-- Of the candidates of a base path the path is the first one where something was found, and this
    is what. One that cannot be asked for counts as one where nothing is. -/
def FoundFirst (l : Loader) (basePath path source : String) : Prop :=
  ∃ before after, LocalPath.candidates l.extensions basePath = before ++ path :: after ∧
    (∀ c ∈ before, ∀ u, l.page.join ("/" ++ c) = .ok u → hist.Fetched u.href none) ∧
    ∃ u, l.page.join ("/" ++ path) = .ok u ∧ hist.Fetched u.href (some source)

/-- The task was started, to load a module by its name. -/
def Called (t : TaskId) : Prop := ∃ l name dir, ⟨.spawn ⟨l, .call name dir⟩, t⟩ ∈ hist

/-- The task is one that others may wait for alone: a stage that was joined or started. -/
def Joined (t : TaskId) : Prop :=
  (∃ l basePath, ⟨.shareResolve l basePath, t⟩ ∈ hist) ∨
    ∃ l path source, ⟨.shareExecute l path source, .inr t⟩ ∈ hist

variable {hist} in
theorem Fetched.mono {hist' : History} {url : String} {text : Option String}
    (hFetched : hist.Fetched url text) (hSub : hist ⊆ hist') : hist'.Fetched url text := by
  obtain ⟨r, hMem, hText⟩ := hFetched
  exact ⟨r, hSub hMem, hText⟩

variable {hist} in
theorem FoundFirst.mono {hist' : History} {l : Loader} {basePath path source : String}
    (hFound : hist.FoundFirst l basePath path source) (hSub : hist ⊆ hist') :
    hist'.FoundFirst l basePath path source := by
  obtain ⟨before, after, hAll, hBefore, u, hJoin, hFetched⟩ := hFound
  exact ⟨before, after, hAll, fun c hc v hUrl => (hBefore c hc v hUrl).mono hSub, u, hJoin,
    hFetched.mono hSub⟩

end History

/-- The work starts other work: one task for each dependency of the source that it has to run. -/
inductive Work.Spawns (hist : History) : Work → Work → Prop
  | execute {l : Loader} {path source s : String} (hSpec : s ∈ Source.specifiers source) :
      Spawns hist ⟨l, .execute path source⟩ ⟨l, .member s (some (LocalPath.baseDirOf path))⟩
  | preload {l : Loader} {source s : String} {dir : Option String}
      (hSpec : s ∈ Source.specifiers source) :
      Spawns hist ⟨l, .preload source dir⟩ ⟨l, .member s dir⟩
  | enter {l : Loader} {entry dir source s : String} {u : Url}
      (hJoin : l.page.join entry = .ok u) (hFetched : hist.Fetched u.href (some source))
      (hSpec : s ∈ Source.specifiers source) :
      Spawns hist ⟨l, .enter entry dir⟩ ⟨l, .member s (some dir)⟩
  | enterDynamic {l : Loader} {entry dir source s : String} {u : Url}
      (hJoin : l.page.join entry = .ok u) (hFetched : hist.Fetched u.href (some source))
      (hSpec : s ∈ Source.specifiers source) :
      Spawns hist ⟨l, .enter entry dir⟩ ⟨l, .call s none⟩

/-- When a piece of work carries out an operation. -/
def Work.Allows (work : Work) (hist : History) : Op → Prop
  | .store (.setAlias key _) =>
      ∃ s d, work.localRequest? = some (s, d) ∧ key = LocalPath.key s d
  | .store (.setCached path _) => ∃ source, work.job = .execute path source
  | .store .clear | .store (.setConfig _) | .setVerbose _ | .host (.compileStyle _)
  | .host (.injectCss _) | .host (.render ..) | .host (.showError ..) => False
  | .log event .. => event ≠ startupFailed
  | .spawn new => work.Spawns hist new
  | .shareResolve l basePath => l = work.loader ∧
      ∃ s d, work.localRequest? = some (s, d) ∧ LocalPath.resolve s d l.page = .ok basePath
  | .shareExecute l path source => l = work.loader ∧
      ∃ basePath, work.job = .resolve basePath ∧ hist.FoundFirst l basePath path source
  | .await t => hist.Joined t
  | .allOk ts => ∀ t ∈ ts, ∃ new, ⟨.spawn new, t⟩ ∈ hist
  | .allDone ts => ∀ t ∈ ts, hist.Called t
  | .send method url => ∀ basePath, work.job = .resolve basePath → method = .get ∧
      ∃ c ∈ LocalPath.candidates work.loader.extensions basePath,
        ∃ u, work.loader.page.join ("/" ++ c) = .ok u ∧ url = u.href
  | _ => True

/-- The work comes to a module, unless it fails. -/
def Job.leavesModule : Job → Bool
  | .tool _ | .preload .. => false
  | _ => true

/-- What a piece of work may come to. -/
structure Work.Ends (work : Work) (hist : History) (r : Outcome) : Prop where
  /-- Whoever remembers a path ends with the module there. -/
  remembers : ∀ key path, ⟨.store (.setAlias key path), ()⟩ ∈ hist →
    ∃ i, r = .ok (some ⟨path, i⟩)
  /-- Whoever puts a module into the cache ends with it. -/
  caches : ∀ path i, ⟨.store (.setCached path i), ()⟩ ∈ hist → r = .ok (some ⟨path, i⟩)
  /-- Whoever executes a module puts it into the cache, unless it fails. -/
  executes : ∀ path source x, work.job = .execute path source → r = .ok x →
    ∃ i, x = some ⟨path, i⟩ ∧ ⟨.store (.setCached path i), ()⟩ ∈ hist
  leaves : ∀ x, work.job.leavesModule = true → r = .ok x → ∃ y, x = some y

/-! ## Section 2: Programs that are parts of many -/

/-- The rule allows what is a part of many programs: whatever is remote, to run a module, and to
    wait for all that was started. -/
structure BasicRule (R : History → Op → Prop) : Prop where
  remote : ∀ {hist o}, o.isRemote = true → R hist o
  compile : ∀ {hist path source}, R hist (.host (.compile path source))
  execute : ∀ {hist m}, R hist (.host (.execute m))
  allOk : ∀ {hist ts}, (∀ t ∈ ts, ∃ new, ⟨.spawn new, t⟩ ∈ hist) → R hist (.allOk ts)
  allDone : ∀ {hist ts}, (∀ t ∈ ts, History.Called hist t) → R hist (.allDone ts)

theorem BasicRule.obeys {R : History → Op → Prop} {hist : History} {α : Type} {p : Load α}
    (hBasic : BasicRule R) (hRemote : p.Remote) : p.Obeys R (fun _ _ => True) hist :=
  Load.Only.obeys hRemote fun _ _ hOp => hBasic.remote hOp

namespace Load

open Attempt (obeys_bind obeys_lift_bind)

section Parts

variable {R : History → Op → Prop} {hist : History} {l : Loader}

/-- What is fetched is what was answered. -/
theorem obeys_fetchText {url : String} (hSend : R hist (.send .get url))
    (hReply : ∀ hist, R hist (.reply .get url)) :
    (fetchText url).run.Obeys R (fun hist r => hist.Fetched url r.toOption) hist := by
  refine .ask hSend fun _ => .ask (hReply _) fun reply => ?_
  cases reply with
  | error e => exact .done ⟨.error e, List.mem_cons_self, rfl⟩
  | ok r =>
    show Load.Obeys R _ _ (ExceptT.run
      (if Status.isSuccess r.status then pure r.body else throw (Failure.http url r.status)))
    split
    · next hOk =>
      refine .done ⟨.ok r, List.mem_cons_self, ?_⟩
      simp [Reply.text?, hOk, Except.toOption]
    · next hNot =>
      refine .done ⟨.ok r, List.mem_cons_self, ?_⟩
      simp [Reply.text?, hNot, Except.toOption]

/-- Each of the tasks was started for one of the jobs. -/
theorem obeys_spawnAll {jobs : List Job}
    (hSpawn : ∀ hist', hist ⊆ hist' → ∀ job ∈ jobs, R hist' (.spawn ⟨l, job⟩)) :
    (spawnAll l jobs).Obeys R
      (fun hist ts => ∀ t ∈ ts, ∃ job ∈ jobs, ⟨.spawn ⟨l, job⟩, t⟩ ∈ hist) hist := by
  induction jobs generalizing hist with
  | nil => exact .done (by simp)
  | cons job jobs ih =>
    refine .ask (hSpawn hist (List.Subset.refl _) job List.mem_cons_self) fun t => ?_
    show Load.Obeys R _ _ (spawnAll l jobs >>= fun ts => pure (t :: ts))
    refine Obeys.bind (ih fun hist' hSub j hj => ?_) fun hist' ts hSub hTs => .done ?_
    · exact hSpawn hist' (List.Subset.trans (List.subset_cons_self _ _) hSub) j
        (List.mem_cons_of_mem _ hj)
    · intro k hk
      rcases List.mem_cons.mp hk with rfl | hk
      · exact ⟨job, List.mem_cons_self, hSub List.mem_cons_self⟩
      · obtain ⟨j, hj, hMem⟩ := hTs k hk
        exact ⟨j, List.mem_cons_of_mem _ hj, hMem⟩

theorem obeys_allSucceed (hBasic : BasicRule R) {jobs : List Job}
    (hSpawn : ∀ hist', hist ⊆ hist' → ∀ job ∈ jobs, R hist' (.spawn ⟨l, job⟩)) :
    (allSucceed l jobs).run.Obeys R (fun _ _ => True) hist := by
  refine Obeys.bind (obeys_spawnAll hSpawn) fun hist' ts _ hTs => ?_
  refine Obeys.op (hBasic.allOk fun t ht => ?_) fun _ => trivial
  obtain ⟨job, -, hMem⟩ := hTs t ht
  exact ⟨⟨l, job⟩, hMem⟩

theorem obeys_preload (hBasic : BasicRule R) {source : String} {dir : Option String}
    (hSpawn : ∀ hist', hist ⊆ hist' → ∀ s ∈ Source.specifiers source,
      R hist' (.spawn ⟨l, .member s dir⟩)) :
    (preload l source dir).run.Obeys R (fun _ _ => True) hist := by
  unfold preload
  split
  · exact .done trivial
  · refine obeys_allSucceed hBasic fun hist' hSub job hJob => ?_
    obtain ⟨s, hs, rfl⟩ := List.mem_map.mp hJob
    exact hSpawn hist' hSub s hs

theorem obeys_preloadDynamic (hBasic : BasicRule R) {source : String}
    (hSpawn : ∀ hist', hist ⊆ hist' → ∀ s ∈ Source.specifiers source,
      R hist' (.spawn ⟨l, .call s none⟩)) :
    (preloadDynamic l source).Obeys R (fun _ _ => True) hist := by
  unfold preloadDynamic
  split
  · exact .done trivial
  · refine Obeys.bind (obeys_spawnAll fun hist' hSub job hJob => ?_) fun hist' ts _ hTs => ?_
    · obtain ⟨s, hs, rfl⟩ := List.mem_map.mp hJob
      exact hSpawn hist' hSub s (List.mem_filter.mp hs).1
    · refine .ask (hBasic.allDone fun t ht => ?_) fun results => ?_
      · obtain ⟨job, hJob, hMem⟩ := hTs t ht
        obtain ⟨s, -, rfl⟩ := List.mem_map.mp hJob
        exact ⟨l, s, none, hMem⟩
      · exact hBasic.obeys (searches_noteFailed _).nameless.remote

theorem obeys_runSource (hBasic : BasicRule R) {path source dir : String}
    (hSpawn : ∀ hist', hist ⊆ hist' → ∀ s ∈ Source.specifiers source,
      R hist' (.spawn ⟨l, .member s (some dir)⟩)) :
    (runSource l path source dir).run.Obeys R (fun _ _ => True) hist := by
  refine obeys_bind (obeys_preload hBasic hSpawn) (fun _ _ _ => trivial) fun hist' _ _ _ => ?_
  refine obeys_bind (Q := fun _ _ => True) (Obeys.op hBasic.compile fun _ => trivial)
    (fun _ _ _ => trivial) fun hist' compiled _ _ => ?_
  exact Obeys.op hBasic.execute fun _ => trivial

theorem obeys_runEntry (hBasic : BasicRule R) {entry dir : String}
    (hMember : ∀ hist' u source, l.page.join entry = .ok u → hist'.Fetched u.href (some source) →
      ∀ s ∈ Source.specifiers source, R hist' (.spawn ⟨l, .member s (some dir)⟩))
    (hCall : ∀ hist' u source, l.page.join entry = .ok u → hist'.Fetched u.href (some source) →
      ∀ s ∈ Source.specifiers source, R hist' (.spawn ⟨l, .call s none⟩)) :
    (runEntry l entry dir).run.Obeys R (fun _ _ => True) hist := by
  refine obeys_bind (Q := fun _ r => r = l.page.join entry) (.done rfl) (fun _ _ _ => trivial)
    fun hist₀ u _ hJoin => ?_
  refine obeys_bind (obeys_fetchText (hBasic.remote rfl) fun _ => hBasic.remote rfl)
    (fun _ _ _ => trivial) fun hist₁ source _ hFetched => ?_
  -- What was fetched stays in the history.
  have hStays : ∀ hist', hist₁ ⊆ hist' → hist'.Fetched u.href (some source) :=
    fun hist' hSub => hFetched.mono hSub
  refine obeys_lift_bind (obeys_preloadDynamic hBasic fun hist' hSub =>
    hCall hist' u source hJoin.symm (hStays hist' hSub)) fun hist₂ _ hSub₂ _ => ?_
  refine obeys_bind (obeys_runSource hBasic fun hist' hSub =>
    hMember hist' u source hJoin.symm (hStays hist' (List.Subset.trans hSub₂ hSub)))
    (fun _ _ _ => trivial) fun hist₃ exports _ _ => ?_
  refine obeys_lift_bind (hBasic.obeys (nameless_info _ (by decide)).remote) fun _ _ _ _ => ?_
  exact .ask (hBasic.remote rfl) fun _ => .done trivial

end Parts

end Load

/-! ## Section 3: Pieces of work -/

/-- The operation keeps what was loaded: it remembers a path, or puts a module into the cache. -/
def Op.isKeeping : Op → Bool
  | .store (.setAlias ..) | .store (.setCached ..) => true
  | _ => false

/-- Nothing has been kept. -/
def History.Unkept (hist : History) : Prop := ∀ x ∈ hist, x.op.isKeeping = false

theorem History.Unkept.cons {hist : History} (hUnkept : hist.Unkept) {o : Op} (r : o.Reply)
    (hNot : o.isKeeping = false) : History.Unkept (⟨o, r⟩ :: hist) :=
  List.forall_mem_cons.mpr ⟨hNot, hUnkept⟩

/-- What was kept is what a program has come to. -/
structure History.Kept (hist : History) (r : Except Failure Loaded) : Prop where
  remembers : ∀ key path, ⟨.store (.setAlias key path), ()⟩ ∈ hist → ∃ i, r = .ok ⟨path, i⟩
  caches : ∀ path i, ⟨.store (.setCached path i), ()⟩ ∈ hist → r = .ok ⟨path, i⟩

theorem History.Unkept.kept {hist : History} (hUnkept : hist.Unkept) (r : Except Failure Loaded) :
    hist.Kept r :=
  ⟨fun _ _ hMem => absurd (hUnkept _ hMem) (by simp [Op.isKeeping]),
    fun _ _ hMem => absurd (hUnkept _ hMem) (by simp [Op.isKeeping])⟩

/-- When a piece of work carries out an operation that keeps nothing. -/
def Work.Prepares (work : Work) (hist : History) (o : Op) : Prop :=
  work.Allows hist o ∧ o.isKeeping = false

/-- What only prepares leaves nothing kept. -/
theorem Load.Obeys.unkept {work : Work} {α : Type} {p : Load α} {hist : History}
    {Q : History → α → Prop} (hObeys : p.Obeys work.Prepares Q hist) (hUnkept : hist.Unkept) :
    p.Obeys work.Allows (fun hist a => Q hist a ∧ hist.Unkept) hist :=
  (hObeys.all (fun _ _ hRule => hRule.2) hUnkept).weaken fun _ _ hRule => hRule.1

/-- All work but the search for a source may reach for anything remote. -/
theorem Work.basicRule {work : Work} (hJob : ∀ basePath, work.job ≠ .resolve basePath) :
    BasicRule work.Prepares where
  remote {hist o} hRemote := by
    cases o with
    | send method url => exact ⟨fun basePath hIs => absurd hIs (hJob basePath), rfl⟩
    | log event detail level => exact ⟨bne_iff_ne.mp hRemote, rfl⟩
    | store o =>
      cases o with
      | setAlias key path => cases hRemote
      | setCached path i => cases hRemote
      | setConfig c => cases hRemote
      | clear => cases hRemote
      | _ => exact ⟨trivial, rfl⟩
    | host o =>
      cases o with
      | inject url => exact ⟨trivial, rfl⟩
      | importModule url => exact ⟨trivial, rfl⟩
      | _ => cases hRemote
    | reply method url => exact ⟨trivial, rfl⟩
    | sleep ms => exact ⟨trivial, rfl⟩
    | _ => cases hRemote
  compile := ⟨trivial, rfl⟩
  execute := ⟨trivial, rfl⟩
  allOk hAll := ⟨hAll, rfl⟩
  allDone hAll := ⟨hAll, rfl⟩

namespace Load

open Attempt (obeys_bind obeys_lift_bind)

section Local

variable {hist : History} {l : Loader}

/-! ### Loading by specifier -/

theorem obeys_remembered {R : History → Op → Prop}
    (hCached : ∀ hist path, R hist (.store (.cached path))) (path : Option String) :
    (remembered path).Obeys R (fun _ _ => True) hist := by
  cases path with
  | none => exact .done trivial
  | some path =>
    refine .ask (hCached _ _) fun found => ?_
    cases found with
    | none => exact .done trivial
    | some i => exact .done trivial

variable {work : Work} {specifier dir : String}

theorem obeys_land (hRequest : work.localRequest? = some (specifier, dir)) (hUnkept : hist.Unkept)
    (x : Loaded) : (land (LocalPath.key specifier dir) specifier x).run.Obeys work.Allows
      History.Kept hist := by
  -- The key need not be known, once it is one of a request.
  have hKey : work.Allows hist (.store (.setAlias (LocalPath.key specifier dir) x.key)) :=
    ⟨specifier, dir, hRequest, rfl⟩
  generalize LocalPath.key specifier dir = key at hKey
  refine .ask hKey fun _ => .ask trivial fun _ => .done ⟨?_, ?_⟩
  · intro key path hMem
    rcases List.mem_cons.mp hMem with hEq | hMem
    · cases hEq
    · rcases List.mem_cons.mp hMem with hEq | hMem
      · cases hEq
        exact ⟨x.module, rfl⟩
      · exact (hUnkept.kept _).remembers key path hMem
  · intro path i hMem
    rcases List.mem_cons.mp hMem with hEq | hMem
    · cases hEq
    · rcases List.mem_cons.mp hMem with hEq | hMem
      · cases hEq
      · exact (hUnkept.kept _).caches path i hMem

/-- Who looks for a local module waits for the first stage, and remembers what comes of it. -/
theorem obeys_findLocal (hLoader : work.loader = l)
    (hRequest : work.localRequest? = some (specifier, dir)) (hUnkept : hist.Unkept) :
    (findLocal l specifier dir).run.Obeys work.Allows History.Kept hist := by
  have hCached : ∀ hist path, work.Prepares hist (.store (.cached path)) :=
    fun _ _ => ⟨trivial, rfl⟩
  refine .ask trivial fun path => ?_
  refine obeys_lift_bind ((obeys_remembered hCached path).unkept (hUnkept.cons _ rfl))
    fun hist₁ hit _ hQ => ?_
  obtain ⟨-, hUnkept₁⟩ := hQ
  cases hit with
  | some x => exact .ask trivial fun _ => .done ((hUnkept₁.cons _ rfl).kept _)
  | none =>
    refine obeys_bind (Q := fun hist r => r = LocalPath.resolve specifier dir l.page ∧ hist.Unkept)
      (.done ⟨rfl, hUnkept₁⟩) (fun _ e hQ => hQ.2.kept _) fun hist₂ basePath _ hQ => ?_
    obtain ⟨hResolve, hUnkept₂⟩ := hQ
    refine .ask trivial fun path => ?_
    refine obeys_lift_bind ((obeys_remembered hCached path).unkept (hUnkept₂.cons _ rfl))
      fun hist₃ hit _ hQ => ?_
    obtain ⟨-, hUnkept₃⟩ := hQ
    cases hit with
    | some x => exact obeys_land hRequest hUnkept₃ _
    | none =>
      refine obeys_bind (Q := fun hist _ => hist.Unkept) ?_ (fun _ e hUnkept => hUnkept.kept _)
        fun hist₄ x _ hUnkept₄ => obeys_land hRequest hUnkept₄ x
      refine .ask ⟨hLoader.symm, specifier, dir, hRequest, hResolve.symm⟩ fun t => ?_
      refine .ask (Or.inl ⟨l, basePath, List.mem_cons_self⟩) fun r => .done ?_
      exact (hUnkept₃.cons _ rfl).cons _ rfl

/-! ### Loading by name -/

theorem obeys_route {R : History → Op → Prop} (hBasic : BasicRule R) (name : String) :
    (route l name).Obeys R
      (fun _ r => r = .localModule → (l.hasLocal && LocalPath.isLocal name) = true) hist := by
  unfold route
  split
  · next hLocal => exact .done fun _ => hLocal
  · refine .ask (hBasic.remote rfl) fun found => ?_
    cases found with
    | some i => exact .done fun hIs => by cases hIs
    | none =>
      split
      · exact .done fun hIs => by cases hIs
      · exact .done fun hIs => by cases hIs

theorem obeys_requireLoaded {name : String} {dir : Option String} (hLoader : work.loader = l)
    (hJob : work.job = .member name dir ∨ work.job = .call name dir) (hUnkept : hist.Unkept) :
    (requireLoaded l name dir).run.Obeys work.Allows History.Kept hist := by
  have hBasic : BasicRule work.Prepares := Work.basicRule fun basePath hIs => by
    rcases hJob with hJob | hJob <;> simp [hJob] at hIs
  refine obeys_lift_bind ((obeys_route hBasic name).unkept hUnkept) fun hist₁ r _ hQ => ?_
  obtain ⟨hLocal, hUnkept₁⟩ := hQ
  cases r with
  | registered i => exact .done (hUnkept₁.kept _)
  | unknown => exact .done (hUnkept₁.kept _)
  | rule r =>
    refine obeys_bind ((hBasic.obeys (remote_loadWithRule l name r)).unkept hUnkept₁)
      (fun _ e hQ => hQ.2.kept _) fun hist₂ i _ hQ => .done (hQ.2.kept _)
  | localModule =>
    refine obeys_findLocal hLoader ?_ hUnkept₁
    have hLocal := hLocal rfl
    obtain ⟨loader, job⟩ := work
    subst hLoader
    rcases hJob with rfl | rfl
    · exact if_pos hLocal
    · exact if_pos hLocal

/-! ### The two stages -/

theorem obeys_fetchFirst {basePath : String} {rest : List String} (all before : List String)
    (hAll : LocalPath.candidates l.extensions basePath = before ++ rest)
    (hBefore : ∀ c ∈ before, ∀ u, l.page.join ("/" ++ c) = .ok u → hist.Fetched u.href none) :
    (fetchFirst l basePath all rest).run.Obeys (Work.Prepares ⟨l, .resolve basePath⟩)
      (fun hist r => ∀ path source, r = .ok (path, source) →
        hist.FoundFirst l basePath path source) hist := by
  induction rest generalizing before hist with
  | nil =>
    refine .ask ⟨?_, rfl⟩ fun _ => .done fun path source hIs => by cases hIs
    show "local-module:failed" ≠ startupFailed
    decide
  | cons path rest ih =>
    have hTail : LocalPath.candidates l.extensions basePath = (before ++ [path]) ++ rest := by
      rw [hAll, List.append_assoc, List.singleton_append]
    unfold fetchFirst
    split
    · next e hJoin =>
      -- What cannot be asked for is passed over.
      refine ih _ hTail fun c hc u hUrl => ?_
      rcases List.mem_append.mp hc with hc | hc
      · exact hBefore c hc u hUrl
      · rw [List.mem_singleton.mp hc, hJoin] at hUrl
        cases hUrl
    · next u hJoin =>
      have hSend : Work.Prepares ⟨l, .resolve basePath⟩ hist (.send .get u.href) := by
        refine ⟨fun b hIs => ?_, rfl⟩
        cases hIs
        exact ⟨rfl, path, by rw [hAll]; simp, u, hJoin, rfl⟩
      refine obeys_lift_bind (p := (fetchText u.href).run)
        (obeys_fetchText hSend fun _ => ⟨trivial, rfl⟩) fun hist₁ outcome hSub hFetched => ?_
      cases outcome with
      | ok text =>
        refine .done fun p source hIs => ?_
        cases hIs
        exact ⟨before, rest, hAll, fun c hc v hUrl => (hBefore c hc v hUrl).mono hSub, u, hJoin,
          hFetched⟩
      | error e =>
        refine ih _ hTail fun c hc v hUrl => ?_
        rcases List.mem_append.mp hc with hc | hc
        · exact (hBefore c hc v hUrl).mono hSub
        · rw [List.mem_singleton.mp hc, hJoin] at hUrl
          cases hUrl
          exact hFetched

/-- What is returned was found at the first of the candidates that can be fetched. -/
theorem obeys_fetchSource (basePath : String) :
    (fetchSource l basePath).run.Obeys (Work.Prepares ⟨l, .resolve basePath⟩)
      (fun hist r => ∀ path source, r = .ok (path, source) →
        hist.FoundFirst l basePath path source) hist :=
  obeys_fetchFirst _ [] (List.nil_append _).symm fun c hc => by cases hc

/-- The first stage has the first source that it finds executed. -/
theorem obeys_findAndExecute (basePath : String) :
    (findAndExecute l basePath).run.Obeys (Work.Prepares ⟨l, .resolve basePath⟩)
      (fun _ _ => True) hist := by
  refine obeys_bind (obeys_fetchSource basePath) (fun _ _ _ => trivial) fun hist₁ x _ hFound => ?_
  obtain ⟨path, source⟩ := x
  have hFound : hist₁.FoundFirst l basePath path source := hFound path source rfl
  refine .ask ⟨trivial, rfl⟩ fun _ => .ask ⟨⟨rfl, basePath, rfl, ?_⟩, rfl⟩ fun r => ?_
  · exact hFound.mono (List.subset_cons_self _ _)
  cases r with
  | inl i => exact .done trivial
  | inr t => exact .ask ⟨Or.inr ⟨l, path, source, List.mem_cons_self⟩, rfl⟩ fun r => .done trivial

/-- The second stage puts the module into the cache that it comes to. -/
theorem obeys_executeSource {path source : String} (hUnkept : hist.Unkept) :
    (executeSource l path source).run.Obeys (Work.Allows ⟨l, .execute path source⟩)
      (fun hist r => hist.Kept r ∧
        ∀ x, r = .ok x → x.key = path ∧ ⟨.store (.setCached path x.module), ()⟩ ∈ hist) hist := by
  have hBasic : BasicRule (Work.Prepares ⟨l, .execute path source⟩) :=
    Work.basicRule fun basePath hIs => by cases hIs
  have hRun : (runSource l path source (LocalPath.baseDirOf path)).run.Obeys
      (Work.Prepares ⟨l, .execute path source⟩) (fun _ _ => True) hist :=
    obeys_runSource hBasic fun _ _ s hs => ⟨.execute hs, rfl⟩
  refine obeys_bind (hRun.unkept hUnkept)
    (fun _ e hQ => ⟨hQ.2.kept _, fun x hIs => by cases hIs⟩) fun hist₁ exports _ hQ => ?_
  obtain ⟨-, hUnkept₁⟩ := hQ
  refine .ask trivial fun i => .ask ⟨source, rfl⟩ fun _ => .ask trivial fun _ => .done ⟨⟨?_, ?_⟩, ?_⟩
  · intro key p hMem
    simp only [List.mem_cons, Answered.mk.injEq, Op.store.injEq, reduceCtorEq, false_and,
      false_or] at hMem
    exact (hUnkept₁.kept _).remembers key p hMem
  · intro p j hMem
    simp only [List.mem_cons, Answered.mk.injEq, Op.store.injEq, reduceCtorEq, false_and,
      false_or, StoreOp.setCached.injEq] at hMem
    rcases hMem with ⟨⟨rfl, rfl⟩, -⟩ | hMem
    · rfl
    · exact (hUnkept₁.kept _).caches p j hMem
  · rintro x ⟨⟩
    exact ⟨rfl, by simp⟩

end Local

end Load

/-! ### All work -/

namespace Work

variable {work : Work} {hist : History}

theorem Ends.of_kept {r : Except Failure Loaded} (hKept : hist.Kept r)
    (hJob : ∀ path source, work.job ≠ .execute path source) : work.Ends hist (r.map some) where
  remembers key path hMem := by
    obtain ⟨i, rfl⟩ := hKept.remembers key path hMem
    exact ⟨i, rfl⟩
  caches path i hMem := by
    rw [hKept.caches path i hMem]
    rfl
  executes path source x hIs := absurd hIs (hJob path source)
  leaves x _ hOk := by
    cases r with
    | error e => cases hOk
    | ok y => exact ⟨y, (Except.ok.inj hOk).symm⟩

theorem Ends.of_unkept {r : Outcome} (hUnkept : hist.Unkept)
    (hJob : ∀ path source, work.job ≠ .execute path source)
    (hLeaves : ∀ x, work.job.leavesModule = true → r = .ok x → ∃ y, x = some y) :
    work.Ends hist r where
  remembers key path hMem := absurd (hUnkept _ hMem) (by simp [Op.isKeeping])
  caches path i hMem := absurd (hUnkept _ hMem) (by simp [Op.isKeeping])
  executes path source x hIs := absurd hIs (hJob path source)
  leaves := hLeaves

/-- A stage gives up its entry at its end. -/
theorem obeys_stage {p : Attempt Loaded} {last : StoreOp} {Q : History → Except Failure Loaded → Prop}
    (hFirst : p.run.Obeys work.Allows Q hist) (hLast : ∀ hist, work.Allows hist (.store last))
    (hEnd : ∀ hist r u, Q hist r → work.Ends (⟨.store last, u⟩ :: hist) (r.map some)) :
    Load.Obeys work.Allows work.Ends hist (do let r ← Load.thenEnd p last; return r.map some) := by
  refine Load.Obeys.bind (Q := fun hist r => work.Ends hist (r.map some)) ?_
    fun _ _ _ hEnds => .done hEnds
  exact hFirst.bind fun hist' r _ hQ => .ask (hLast _) fun u => .done (hEnd hist' r u hQ)

/-- Other work ends with what its program comes to. -/
theorem obeys_job {α : Type} {p : Load α} {Q : History → α → Prop} {f : α → Load Outcome}
    {g : α → Outcome} (hFirst : p.Obeys work.Allows Q hist) (hDone : ∀ r, f r = .done (g r))
    (hEnd : ∀ hist r, Q hist r → work.Ends hist (g r)) :
    (p >>= f).Obeys work.Allows work.Ends hist := by
  refine hFirst.bind fun hist' r _ hQ => ?_
  rw [hDone]
  exact .done (hEnd hist' r hQ)

/-- **Every piece of work conducts itself by its rule**, and comes to what the rule says. -/
theorem obeys (work : Work) : work.program.Obeys work.Allows work.Ends [] := by
  have hNone : History.Unkept [] := fun x hx => by cases hx
  obtain ⟨loader, job⟩ := work
  cases job with
  | resolve basePath =>
    refine obeys_stage ((Load.obeys_findAndExecute basePath).unkept hNone) (fun _ => trivial)
      fun hist r u hQ => ?_
    exact .of_kept ((hQ.2.cons u rfl).kept r) fun _ _ hIs => by cases hIs
  | execute path source =>
    refine obeys_stage (Load.obeys_executeSource hNone) (fun _ => trivial) fun hist r u hQ => ?_
    obtain ⟨hKept, hOk⟩ := hQ
    refine ⟨fun key p hMem => ?_, fun p i hMem => ?_, fun p s x hIs hDone => ?_, fun x _ hDone => ?_⟩
    · obtain ⟨i, rfl⟩ := hKept.remembers key p (by simpa using hMem)
      exact ⟨i, rfl⟩
    · rw [hKept.caches p i (by simpa using hMem)]
      rfl
    · cases hIs
      cases r with
      | error e => cases hDone
      | ok y =>
        obtain ⟨hKey, hMem⟩ := hOk y rfl
        obtain rfl : some y = x := Except.ok.inj hDone
        exact ⟨y.module, hKey ▸ rfl, List.mem_cons_of_mem _ hMem⟩
    · cases r with
      | error e => cases hDone
      | ok y => exact ⟨y, (Except.ok.inj hDone).symm⟩
  | member name dir =>
    refine obeys_job (g := fun r => (r.map some).mapError (.preload name))
      (Load.obeys_requireLoaded rfl (Or.inl rfl) hNone) (fun r => by cases r <;> rfl)
      fun hist r hKept => ?_
    cases r with
    | ok x => exact .of_kept hKept fun _ _ hIs => by cases hIs
    -- A failure is wrapped, and keeps as little as it did before.
    | error e =>
      exact .of_kept (r := .error (.preload name e)) ⟨fun key path hMem => by
        simpa using hKept.remembers key path hMem, fun path i hMem => by
        simpa using hKept.caches path i hMem⟩ fun _ _ hIs => by cases hIs
  | call name dir =>
    exact obeys_job (Load.obeys_requireLoaded rfl (Or.inr rfl) hNone) (fun _ => rfl)
      fun hist r hKept => .of_kept hKept fun _ _ hIs => by cases hIs
  | load specifier dir =>
    exact obeys_job (Load.obeys_findLocal rfl rfl hNone) (fun _ => rfl)
      fun hist r hKept => .of_kept hKept fun _ _ hIs => by cases hIs
  | tool d =>
    have hBasic : BasicRule (Prepares ⟨loader, .tool d⟩) := basicRule fun _ hIs => by cases hIs
    refine obeys_job ((hBasic.obeys (Load.nameless_loadTool loader d).remote).unkept hNone) (fun _ => rfl)
      fun hist r hQ => .of_unkept hQ.2 (fun _ _ hIs => by cases hIs) fun x hLeaves => by cases hLeaves
  | preload source dir =>
    have hBasic : BasicRule (Prepares ⟨loader, .preload source dir⟩) :=
      basicRule fun _ hIs => by cases hIs
    refine obeys_job ((Load.obeys_preload hBasic fun _ _ s hs => ⟨.preload hs, rfl⟩).unkept hNone)
      (fun _ => rfl) fun hist r hQ => .of_unkept hQ.2 (fun _ _ hIs => by cases hIs)
        fun x hLeaves => by cases hLeaves
  | enter entry dir =>
    have hBasic : BasicRule (Prepares ⟨loader, .enter entry dir⟩) :=
      basicRule fun _ hIs => by cases hIs
    refine obeys_job ((Load.obeys_runEntry hBasic
      (fun _ u source hJoin hFetched s hs => ⟨.enter hJoin hFetched hs, rfl⟩)
      fun _ u source hJoin hFetched s hs => ⟨.enterDynamic hJoin hFetched hs, rfl⟩).unkept hNone)
      (fun _ => rfl) fun hist r hQ => .of_unkept hQ.2 (fun _ _ hIs => by cases hIs) fun x _ hOk => ?_
    cases r with
    | error e => cases hOk
    | ok i => exact ⟨_, (Except.ok.inj hOk).symm⟩

end Work

/-! ## Section 4: Conduct in runs -/

namespace World

variable {h : Host} {asks : Work → Prop} {w₀ w : World} {past : List Label}

/-- **In every run, what is left of a piece of work that was begun in it obeys its rule.** -/
theorem Run.obeys (hRun : Run h asks w₀ past w) {t : TaskId} {work : Work} {p : Load Outcome}
    (hTask : w.tasks[t]? = some ⟨work, p⟩) (hNew : w₀.tasks.length ≤ t) :
    p.Obeys work.Allows work.Ends (historyOf t past) :=
  hRun.obeys_of work.obeys hTask hNew

/-- Whatever it has carried out was allowed by what it had carried out before. -/
theorem Run.allowed (hRun : Run h asks w₀ past w) {t : TaskId} {work : Work} {o : Op} {r : o.Reply}
    (hWork : w.workOf? t = some work) (hNew : w₀.tasks.length ≤ t) (hAct : .act t o r ∈ past) :
    ∃ before, before ⊆ historyOf t past ∧ work.Allows before o :=
  hRun.allowed_of work.obeys hWork hNew hAct

/-- What a piece of work has come to fits all that it has carried out. -/
theorem Run.ends (hRun : Run h asks w₀ past w) {t : TaskId} {work : Work} {r : Outcome}
    (hWork : w.workOf? t = some work) (hNew : w₀.tasks.length ≤ t)
    (hOutcome : w.outcome? t = some r) : work.Ends (historyOf t past) r :=
  hRun.ends_of work.obeys hWork hNew hOutcome

end World

end Bundleless
