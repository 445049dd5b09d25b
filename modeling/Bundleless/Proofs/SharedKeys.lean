import Bundleless.Proofs.LocalRuns
import Bundleless.Proofs.Replay
import Bundleless.World.Site

/-! # Keys that stand for one meaning

    What was loaded for a specifier and a directory is remembered under a
    key, and whoever asks under this key later gets it. So a request gets
    what it means in every run just when nothing else can be meant under its
    key. The key has the directory without the slashes at its ends; so it is
    the same for a directory seen from the page and for one seen from the
    root of the site, which need not be the same.
-/

namespace Bundleless

/-! ## Section 1: Requests that get what they mean -/

namespace Loader

variable (l : Loader)

/-- The path is one under which the specifier, seen from the directory, may be found. -/
def MayBeAt (specifier dir path : String) : Prop :=
  ∃ basePath, LocalPath.resolve specifier dir l.page = .ok basePath ∧
    path ∈ LocalPath.candidates l.extensions basePath

/-- In every run whoever asks for the specifier, seen from the directory, and does not fail gets the
    module that is cached at a path under which it may be found. -/
def Agrees (specifier dir : String) : Prop :=
  ∀ h w₀ past w, w₀.Fresh → World.Run h l.Asks w₀ past w →
    ∀ t work x, w.workOf? t = some work → work.localRequest? = some (specifier, dir) →
      w.outcome? t = some (.ok (some x)) →
      w.store.cache.get? x.key = some x.module ∧ l.MayBeAt specifier dir x.key

/-- Whatever can be found for a request with the same key may be found for this one too. -/
def Determines (specifier dir : String) : Prop :=
  ∀ specifier' dir' path, LocalPath.key specifier' dir' = LocalPath.key specifier dir →
    l.Means specifier' dir' path → l.MayBeAt specifier dir path

variable {l} {specifier dir : String}

/-- What is loaded is what some request with the same key means. -/
theorem Determines.agrees (hDetermines : l.Determines specifier dir) : l.Agrees specifier dir := by
  intro h w₀ past w hFresh hRun t work x hWork hRequest hOutcome
  have hLanded := (hRun.adequate hFresh).holds.landed hWork hRequest hOutcome
  -- The alias was written for some request with this key, not for this one.
  obtain ⟨specifier', dir', hKey, hMeans⟩ := hLanded.known
  exact ⟨hLanded.cached, hDetermines specifier' dir' x.key hKey.symm hMeans⟩

end Loader

/-! ## Section 2: A run for every meaning

    The other way round a run has to be given: a page on which nothing but one
    path is found, and two requests one after the other, the first of which
    means that path.
-/

namespace Load

variable {l : Loader} {h : Host} {w : World} {path : String} {u : Url}

/-- An empty source is found at a path, after the candidates before it are not. -/
theorem goes_fetchFirst (basePath : String) (all : List String) {rest : List String}
    (hMem : path ∈ rest) (hJoin : l.page.join ("/" ++ path) = .ok u) :
    ∃ w', (fetchFirst l basePath all rest).run.Goes h w (.done (.ok (path, ""))) w' ∧
      w'.tasks = w.tasks ∧ w'.store = w.store := by
  induction rest generalizing w with
  | nil => simp at hMem
  | cons c rest ih =>
    by_cases hEq : c = path
    · subst hEq
      refine ⟨w.note (.requested .get u.href), ?_, rfl, rfl⟩
      unfold fetchFirst
      rw [hJoin]
      exact .step (.perform rfl) (.step (.reply .get u.href (.ok ⟨200, ""⟩)) (.refl _ _))
    · have hMem : path ∈ rest := by simpa [Ne.symm hEq] using hMem
      unfold fetchFirst
      cases hOther : l.page.join ("/" ++ c) with
      | error e => exact ih hMem
      | ok v =>
        obtain ⟨w', hGoes, hTasks, hStore⟩ := ih (w := w.note (.requested .get v.href)) hMem
        refine ⟨w', ?_, hTasks, hStore⟩
        exact .step (.perform rfl) (.step (.reply .get v.href (.ok ⟨404, ""⟩)) hGoes)

/-- A stage that gives its entry up at the end goes on like its program. -/
theorem goes_thenEnd {p q : Attempt Loaded} {w' : World} (last : StoreOp)
    (hGoes : p.run.Goes h w q.run w') : (thenEnd p last).Goes h w (thenEnd q last) w' :=
  hGoes.bind _

/-- An empty source imports nothing, and runs on every page. -/
theorem goes_executeSource (w : World) (path : String) : ∃ w' i,
    (executeSource l path "").run.Goes (Site.host {}) w (.done (.ok ⟨path, i⟩)) w' ∧
      w'.tasks = w.tasks ∧ w'.store.cache.get? path = some i := by
  have hNone : Source.specifiers "" = [] := by decide
  have hCompile : (Op.host (.compile path "")).Answers (Site.host {}) w (.ok ⟨path, ""⟩)
      (w.note (.compiled path)) := .perform rfl
  have hExecute : (Op.host (.execute ⟨path, ""⟩)).Answers (Site.host {})
      (w.note (.compiled path))
      (.ok (.ofFields [("path", .string path), ("deps", .ofStrings [])]))
      ((w.note (.compiled path)).note (.executed path)) := .perform rfl
  unfold executeSource runSource preload
  rw [hNone]
  refine ⟨_, _, .step hCompile (.step hExecute (.store (.store (.store (.refl _ _))))), rfl, ?_⟩
  exact Table.get?_insert_self ..

/-! ### The tasks of the first request -/

/-- What is left of a first stage that waits for the second one. -/
def waitExecute (basePath : String) (k : TaskId) : Load Outcome := do
  let r ← thenEnd (ExceptT.mk (op (.await k))) (.endResolve basePath)
  return r.map some

/-- What is left of a request that waits for the first stage. -/
def waitResolve (key specifier : String) (k : TaskId) : Load Outcome := do
  let r ← (ExceptT.mk (op (.await k)) >>= land key specifier).run
  return r.map some

theorem goes_load {specifier dir basePath : String}
    (hResolve : LocalPath.resolve specifier dir l.page = .ok basePath)
    (hAlias : w.store.aliases.get? (LocalPath.key specifier dir) = none)
    (hResolved : w.store.resolved.get? basePath = none)
    (hResolving : w.store.resolving.get? basePath = none) : ∃ w',
    (Work.program ⟨l, .load specifier dir⟩).Goes h w
        (waitResolve (LocalPath.key specifier dir) specifier w.tasks.length) w' ∧
      w'.tasks = w.tasks ++ [⟨⟨l, .resolve basePath⟩, Work.program ⟨l, .resolve basePath⟩⟩] ∧
      w'.store.cache = w.store.cache ∧ w'.store.executing = w.store.executing := by
  let w' : World := (w.start ⟨l, .resolve basePath⟩).2.withStore
    { w.store with resolving := w.store.resolving.insert basePath w.tasks.length }
  have hShare : (Op.shareResolve l basePath).Answers h w w.tasks.length w' := by
    refine .perform ?_
    simp only [Op.perform, hResolving]
    rfl
  refine ⟨w', ?_, rfl, rfl, rfl⟩
  refine Goes.bind (p := (findLocal l specifier dir).run)
    (q := (ExceptT.mk (op (.await w.tasks.length)) >>=
      land (LocalPath.key specifier dir) specifier).run) ?_ _
  unfold findLocal
  refine .store ?_
  simp only [StoreOp.apply, hAlias, hResolve]
  refine .store ?_
  simp only [StoreOp.apply]
  rw [show (w.withStore w.store).store.resolved.get? basePath = none from hResolved]
  exact .step hShare (.refl _ _)

theorem goes_resolve {basePath : String}
    (hMem : path ∈ LocalPath.candidates l.extensions basePath)
    (hJoin : l.page.join ("/" ++ path) = .ok u) (hCache : w.store.cache.get? path = none)
    (hExecuting : w.store.executing.get? path = none) : ∃ w',
    (Work.program ⟨l, .resolve basePath⟩).Goes h w (waitExecute basePath w.tasks.length) w' ∧
      w'.tasks = w.tasks ++ [⟨⟨l, .execute path ""⟩, Work.program ⟨l, .execute path ""⟩⟩] := by
  obtain ⟨w₁, hFetch, hTasks, hStore⟩ := goes_fetchFirst (h := h) (w := w) basePath
    (LocalPath.candidates l.extensions basePath) hMem hJoin
  let w₂ : World := w₁.withStore { w.store with resolved := w.store.resolved.insert basePath path }
  let w' : World := (w₂.start ⟨l, .execute path ""⟩).2.withStore
    { w₂.store with executing := w₂.store.executing.insert path w₂.tasks.length }
  have hShare : (Op.shareExecute l path "").Answers h w₂ (.inr w.tasks.length) w' := by
    refine .perform ?_
    have hVacant : w₂.store.executing.get? path = none := hExecuting
    have hNone : w₂.store.cache.get? path = none := hCache
    have hLength : w₂.tasks.length = w.tasks.length := congrArg List.length hTasks
    simp only [Op.perform, hVacant, hNone]
    rw [← hLength]
    rfl
  have hFind : (findAndExecute l basePath).run.Goes h w
      (ExceptT.mk (op (.await w.tasks.length))).run w' := by
    unfold findAndExecute fetchSource
    rw [ExceptT.run_bind]
    refine (hFetch.bind _).trans (.store ?_)
    have hSame : w₁.withStore (StoreOp.apply w₁.store (.setResolved basePath path)).2 = w₂ := by
      simp only [StoreOp.apply, hStore]
      rfl
    rw [hSame]
    exact .step hShare (.refl _ _)
  exact ⟨w', (goes_thenEnd (.endResolve basePath) hFind).bind _, congrArg (· ++ _) hTasks⟩

theorem goes_execute (w : World) (path : String) : ∃ w' i,
    (Work.program ⟨l, .execute path ""⟩).Goes (Site.host {}) w (.done (.ok (some ⟨path, i⟩))) w' ∧
      w'.tasks = w.tasks ∧ w'.store.cache.get? path = some i := by
  obtain ⟨w₁, i, hExecute, hTasks, hCache⟩ := goes_executeSource (l := l) w path
  refine ⟨w₁.withStore (StoreOp.apply w₁.store (.endExecute path)).2, i, ?_, hTasks, hCache⟩
  exact ((goes_thenEnd (.endExecute path) hExecute).bind _).trans (.store (.refl _ _))

theorem answers_await {k : TaskId} {x : Loaded} (hDone : w.outcome? k = some (.ok (some x))) :
    (Op.await k).Answers h w (.ok x) w := by
  refine .perform ?_
  have hLoaded : w.loaded? k = some (.ok x) := by simp [World.loaded?, hDone]
  simp only [Op.perform, hLoaded]
  rfl

theorem goes_waitExecute {k : TaskId} {x : Loaded} (basePath : String)
    (hDone : w.outcome? k = some (.ok (some x))) : ∃ w',
    (waitExecute basePath k).Goes h w (.done (.ok (some x))) w' ∧ w'.tasks = w.tasks ∧
      w'.store.cache = w.store.cache :=
  ⟨w.withStore (StoreOp.apply w.store (.endResolve basePath)).2,
    .step (answers_await hDone) (.store (.refl _ _)), rfl, rfl⟩

theorem goes_waitResolve {k : TaskId} {x : Loaded} (key specifier : String)
    (hDone : w.outcome? k = some (.ok (some x))) : ∃ w',
    (waitResolve key specifier k).Goes h w (.done (.ok (some x))) w' ∧ w'.tasks = w.tasks ∧
      w'.store.aliases.get? key = some x.key ∧ w'.store.cache = w.store.cache := by
  let w₁ : World := w.withStore (StoreOp.apply w.store (.setAlias key x.key)).2
  refine ⟨w₁.withStore (StoreOp.apply w₁.store (.register specifier x.module)).2,
    .step (answers_await hDone) (.store (.store (.refl _ _))), rfl, ?_, rfl⟩
  exact Table.get?_insert_self ..

/-- What is remembered under the key is taken from there. -/
theorem goes_hit {specifier dir : String} {i : Instance}
    (hAlias : w.store.aliases.get? (LocalPath.key specifier dir) = some path)
    (hCache : w.store.cache.get? path = some i) : ∃ w',
    (Work.program ⟨l, .load specifier dir⟩).Goes h w (.done (.ok (some ⟨path, i⟩))) w' ∧
      w'.tasks = w.tasks := by
  refine ⟨w.withStore (StoreOp.apply w.store (.register specifier i)).2, ?_, rfl⟩
  refine Goes.bind (p := (findLocal l specifier dir).run) (q := .done (.ok ⟨path, i⟩)) ?_ _
  unfold findLocal
  refine .store ?_
  simp only [StoreOp.apply, hAlias]
  refine .store ?_
  simp only [StoreOp.apply]
  rw [show (w.withStore w.store).store.cache.get? path = some i from hCache]
  exact .store (.refl _ _)

end Load

/-- **Every meaning is loaded in some run**: on a page where nothing else is found, a request leaves
    the path remembered and its module cached. -/
theorem Loader.Means.exists_run {l : Loader} {specifier dir path : String}
    (hMeans : l.Means specifier dir path) : ∃ w i, World.Leads (Site.host {}) l.Asks {} w ∧
      w.store.aliases.get? (LocalPath.key specifier dir) = some path ∧
      w.store.cache.get? path = some i := by
  obtain ⟨basePath, hResolve, hMem, u, hJoin⟩ := hMeans
  -- Task 0 is the request, task 1 its first stage and task 2 its second one.
  let p₀ := Load.waitResolve (LocalPath.key specifier dir) specifier 1
  let p₁ := Load.waitExecute basePath 2
  let w₁ : World := (World.start {} ⟨l, .load specifier dir⟩).2
  have h₁ : World.Leads (Site.host {}) l.Asks {} w₁ := .of_step (.start {} ⟨rfl, rfl, rfl⟩)
  -- The request goes on until it waits for the first stage.
  obtain ⟨_, hGoes, hTasks, hCache, hExecuting⟩ :=
    Load.goes_load (h := Site.host {}) (w := w₁) hResolve rfl rfl rfl
  obtain ⟨w₂, h₂, hStore₂, hTasks₂⟩ := h₁.carry (t := 0) rfl hGoes
  rw [hTasks] at hTasks₂
  rw [← hStore₂] at hCache hExecuting
  -- The first stage, until it waits for the second one.
  obtain ⟨_, hGoes, hTasks⟩ := Load.goes_resolve (h := Site.host {}) (w := w₂) hMem
    hJoin (congrArg (·.get? path) hCache) (congrArg (·.get? path) hExecuting)
  obtain ⟨w₃, h₃, -, hTasks₃⟩ := h₂.carry (t := 1) (by rw [hTasks₂]; rfl) hGoes
  rw [hTasks, hTasks₂] at hTasks₃
  -- The second stage, to its end.
  obtain ⟨_, i, hGoes, hTasks, hCached⟩ := Load.goes_execute (l := l) w₃ path
  obtain ⟨w₄, h₄, hStore₄, hTasks₄⟩ := h₃.carry (t := 2) (by rw [hTasks₃]; rfl) hGoes
  rw [hTasks, hTasks₃] at hTasks₄
  rw [← hStore₄] at hCached
  -- The first stage and the request get the module.
  obtain ⟨_, hGoes, hTasks, hCache⟩ := Load.goes_waitExecute (h := Site.host {}) (w := w₄)
    (k := 2) basePath (by rw [World.outcome?, hTasks₄]; rfl)
  obtain ⟨w₅, h₅, hStore₅, hTasks₅⟩ := h₄.carry (t := 1) (by rw [hTasks₄]; rfl) hGoes
  rw [hTasks, hTasks₄] at hTasks₅
  rw [← hCache, ← hStore₅] at hCached
  obtain ⟨_, hGoes, -, hAlias, hCache⟩ := Load.goes_waitResolve (h := Site.host {}) (w := w₅)
    (k := 1) (LocalPath.key specifier dir) specifier (by rw [World.outcome?, hTasks₅]; rfl)
  obtain ⟨w₆, h₆, hStore₆, -⟩ := h₅.carry (t := 0) (by rw [hTasks₅]; rfl) hGoes
  rw [← hCache, ← hStore₆] at hCached
  exact ⟨w₆, i, h₆, by rw [hStore₆, hAlias], hCached⟩

/-! ## Section 3: Both together -/

/-- A request that shares its key with something that it cannot mean gets that in some run. -/
theorem Loader.Agrees.determines {l : Loader} {specifier dir : String}
    (hAgrees : l.Agrees specifier dir) : l.Determines specifier dir := by
  intro specifier' dir' path hKey hMeans
  obtain ⟨w, i, hLeads, hAlias, hCached⟩ := hMeans.exists_run
  rw [hKey] at hAlias
  -- A second request finds what the first one left.
  let w₁ : World := (w.start ⟨l, .load specifier dir⟩).2
  have hStart : World.Leads (Site.host {}) l.Asks {} w₁ :=
    hLeads.trans (.of_step (.start w ⟨rfl, rfl, rfl⟩))
  have hTask : w₁.tasks[w.tasks.length]? =
      some ⟨⟨l, .load specifier dir⟩, Work.program ⟨l, .load specifier dir⟩⟩ := by
    simp [w₁, World.start]
  obtain ⟨w₂, hGoes, hTasks⟩ := Load.goes_hit (h := Site.host {}) (w := w₁) hAlias hCached
  obtain ⟨w₃, ⟨past, hRun⟩, -, hTasks₃⟩ := hStart.carry hTask hGoes
  have hDone : w₃.tasks[w.tasks.length]? =
      some ⟨⟨l, .load specifier dir⟩, .done (.ok (some ⟨path, i⟩))⟩ := by
    rw [hTasks₃, hTasks, List.getElem?_modify_eq, hTask]
    rfl
  exact (hAgrees _ _ past w₃ World.fresh_empty hRun w.tasks.length _ ⟨path, i⟩
    (World.workOf?_of_task hDone) rfl (World.outcome?_eq_some_iff.mpr ⟨_, hDone⟩)).2

/-- **A request gets what it means in every run just when its key determines what is meant.** -/
theorem Loader.agrees_iff_determines (l : Loader) (specifier dir : String) :
    l.Agrees specifier dir ↔ l.Determines specifier dir :=
  ⟨Agrees.determines, Determines.agrees⟩

/-- On a page in a directory of its own `src` and `/src` are two directories with one key. What was
    loaded from the first is given to who asks for the second. -/
theorem Loader.not_agrees_below_root :
    ¬ (Replay.loaderAt ["app", "index.html"]).Agrees "./theme" "/src" := by
  obtain ⟨past, w, hRun, hDone⟩ := World.exists_run (Site.host {})
    (Replay.loaderAt ["app", "index.html"]) {}
    [.ask (.load "./theme" "src"), .go 0 3, .go 1 1, .reply 1 (Replay.found ""), .go 1 2, .go 2 6,
      .go 1 2, .go 0 3, .ask (.load "./theme" "/src"), .go 3 3]
    (fun x => (x.2.workOf? 3).map (·.localRequest?) = some (some ("./theme", "/src")) ∧
      (x.2.loadedBy? 3).map (·.key) = some "app/src/theme") (by decide +kernel)
  obtain ⟨hAsked, hLoaded⟩ := of_decide_eq_true hDone
  obtain ⟨work, hWork, hRequest⟩ := Option.map_eq_some_iff.mp hAsked
  obtain ⟨x, hLoaded, hPath⟩ := Option.map_eq_some_iff.mp hLoaded
  intro hAgrees
  obtain ⟨-, basePath, hResolve, hMem⟩ := hAgrees _ _ past w World.fresh_empty hRun 3 work x hWork
    hRequest (World.loadedBy?_eq_some_iff.mp hLoaded)
  have hMeaning : (LocalPath.resolve "./theme" "/src"
      (Replay.loaderAt ["app", "index.html"]).page).toOption = some "src/theme" := by decide +kernel
  rw [hResolve] at hMeaning
  obtain rfl : basePath = "src/theme" := Option.some.inj hMeaning
  rw [hPath] at hMem
  exact absurd hMem (by decide +kernel)

end Bundleless
