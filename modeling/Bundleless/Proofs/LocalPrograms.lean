import Bundleless.Proofs.RemotePrograms

/-! # The programs of local modules

    Every program of a loader keeps the discipline of local modules, and what
    each of them leaves known. The programs are taken from the inside out:
    what is remembered, the search for a source, what has to be there before
    a module runs, and last the pieces of work.
-/

namespace Bundleless

/-! ## Section 1: What lasts -/

section Lasting

variable {l : Loader} {t : TaskId}

/-- A fact that holds for good. -/
def Fact.lasting (P : Moment → Prop) (hLasts : ∀ {m m'}, Moment.Later m m' → P m → P m') :
    Fact l.discipline t :=
  ⟨P, fun hRely => hLasts hRely.later⟩

/-- A step that was made. -/
def Fact.made (step : Label) : Fact l.discipline t :=
  .lasting (fun m => step ∈ m.past) fun hLater => hLater.past _

/-- The module at a path. -/
def Fact.cached (path : String) (i : Instance) : Fact l.discipline t :=
  .lasting (fun m => m.Cached path i) fun hLater => hLater.cached path i

/-- A key of the registry. -/
def Fact.registered (key : String) : Fact l.discipline t :=
  .lasting (fun m => m.Registered key) fun hLater => hLater.registered key

/-- What has been found under a key is a path that can be meant. -/
def Fact.found (key : String) (path : String) : Fact l.discipline t :=
  .lasting (fun m => m.Found t key path ∧ l.Known key path) fun hLater hFound =>
    ⟨hFound.1.later hLater, hFound.2⟩

/-- A local module that this task has loaded, and its name in the registry. -/
def Fact.landed (specifier dir path : String) (i : Instance) : Fact l.discipline t :=
  .lasting (fun m => m.Landed l t specifier dir path i ∧ m.Registered specifier)
    fun hLater hLanded => ⟨hLanded.1.later hLater, hLater.registered _ hLanded.2⟩

end Lasting

variable {l : Loader} {h : Host} {work : Work} {t : TaskId} {K : Fact l.discipline t}

/-! ## Section 2: What is remembered -/

theorem adds_pathOf (key : String) :
    Adds h work K (Load.store (.pathOf key)) (Fact.onSome fun path => .found key path) := by
  refine adds_free rfl fun m r w hHolds _ hAnswer => ?_
  obtain ⟨hReply, rfl⟩ := hAnswer.store
  cases r with
  | none => trivial
  | some path =>
    have hInv : LocalInv l m := hHolds.inv
    exact ⟨Or.inl List.mem_cons_self, (hInv.aliases key path hReply.symm).2⟩

theorem adds_resolved (basePath : String) :
    Adds h work K (Load.store (.resolved basePath))
      (Fact.onSome fun path => .pure (l.Finds basePath path)) := by
  refine adds_read rfl fun m r w hHolds _ hAnswer => ?_
  cases r with
  | none => trivial
  | some path =>
    have hInv : LocalInv l m := hHolds.inv
    exact hInv.resolved basePath path hAnswer.store.1.symm

theorem adds_remembered (path : Option String) :
    Adds h work K (Load.remembered path)
      (Fact.onSome fun x => (Fact.pure (path = some x.1)).and (.cached x.1 x.2)) := by
  cases path with
  | none => exact Adds.done fun _ _ => trivial
  | some path =>
    refine Adds.bind (N := Fact.onSome fun i => .cached path i) ?_ fun r => ?_
    · refine adds_read rfl fun m r w _ _ hAnswer => ?_
      cases r with
      | none => trivial
      | some i => exact hAnswer.store.1.symm
    · cases r with
      | none => exact Adds.done fun _ _ => trivial
      | some i => exact Adds.done fun m hK => ⟨rfl, hK.2⟩

/-! ## Section 3: Loading by specifier -/

theorem adds_setAlias {key path : String} {i : Instance}
    (hCached : ∀ m, K m → m.Cached path i) (hKnown : ∀ m, K m → l.Known key path) :
    Adds h work K (Load.store (.setAlias key path)) fun _ => .found key path :=
  adds_op rfl (fun m _ _ hK => ⟨⟨i, hCached m hK⟩, hKnown m hK⟩) fun m _ _ _ hK _ _ =>
    ⟨Or.inr List.mem_cons_self, hKnown m hK⟩

theorem adds_register (key : String) (i : Instance) :
    Adds h work K (Load.store (.register key i)) fun _ =>
      (Fact.made (.act t (.store (.register key i)) ())).and (.registered key) := by
  refine adds_free rfl fun m r w _ _ hAnswer => ⟨List.mem_cons_self, ?_⟩
  obtain ⟨-, rfl⟩ := hAnswer.store
  exact (Registry.contains_insert ..).trans (by simp)

/-- The first stage is joined or started: some task finds out what the path means. -/
theorem adds_shareResolve {loader : Loader} (basePath : String) (hServes : l.Serves loader) :
    Adds h work K (Load.op (.shareResolve loader basePath)) fun k =>
      .lasting (fun m => m.Resolves k basePath)
        fun hLater hResolves => hLater.resolves hResolves := by
  refine adds_op rfl (fun _ _ _ _ => hServes) fun m k w hHolds _ _ hAnswer => ?_
  have hInv : LocalInv l m := hHolds.inv
  rcases hAnswer.shareResolve with ⟨hJoin, rfl⟩ | ⟨-, rfl, rfl⟩
  · exact hInv.resolving basePath k hJoin
  · exact ⟨loader, (World.starts_start _).workOf?_new⟩

/-- Who waits for a task learns what holds for good once that task is done. -/
theorem tries_await {k : TaskId} {N : Loaded → Fact l.discipline t}
    (hN : ∀ m x, l.discipline.Holds m → K m → m.outcome? k = some (.ok (some x)) → N x m) :
    Tries h work K (ExceptT.mk (Load.op (.await k))) N := by
  refine Tries.mk (adds_read rfl fun m r w hHolds hK hAnswer => ?_)
  cases r with
  | error e => trivial
  | ok x => exact ⟨trivial, hN m x hHolds hK (World.outcome?_of_loaded? hAnswer.await.1)⟩

/-- The module that the first stage comes to is cached at a candidate. -/
theorem tries_awaitResolve {k : TaskId} {basePath : String}
    (hResolves : ∀ m, K m → m.Resolves k basePath) :
    Tries h work K (ExceptT.mk (Load.op (.await k))) fun x =>
      (Fact.cached x.key x.module).and (.pure (l.Finds basePath x.key)) := by
  refine tries_await fun m x hHolds hK hOutcome => ?_
  obtain ⟨loader, hWork⟩ := hResolves m hK
  obtain ⟨-, hOk⟩ := hHolds.post hWork hOutcome
  obtain ⟨path, i, hIs, hCached, hFinds⟩ := hOk _ rfl
  obtain rfl := Option.some.inj hIs
  exact ⟨hCached, hFinds⟩

/-- Who joins the first stage gets a module that is cached at a candidate. -/
theorem tries_joinResolve {loader : Loader} (basePath : String) (hServes : l.Serves loader) :
    Tries h work K (Load.joinResolve loader basePath) fun x =>
      (Fact.cached x.key x.module).and (.pure (l.Finds basePath x.key)) :=
  Tries.bind (Tries.lift (adds_shareResolve basePath hServes)) fun _ =>
    tries_awaitResolve fun _ hK => hK.2

/-- A module that is cached at a path that the key can mean lands there. -/
theorem tries_land {specifier dir : String} {x : Loaded}
    (hCached : ∀ m, K m → m.Cached x.key x.module)
    (hKnown : ∀ m, K m → l.Known (LocalPath.key specifier dir) x.key) :
    Tries h work K (Load.land (LocalPath.key specifier dir) specifier x) fun y =>
      .landed specifier dir y.key y.module := by
  refine Tries.bind (Tries.lift (adds_setAlias hCached hKnown)) fun _ => ?_
  refine Tries.bind (Tries.lift (adds_register specifier x.module)) fun _ =>
    Tries.pure fun m hK => ?_
  exact ⟨⟨hK.1.2.1, hCached m hK.1.1, hK.1.2.2, hK.2.1⟩, hK.2.2⟩

/-- **A specifier that is loaded has landed**, whichever way it went: by its alias, by the path that
    was found before, or by the first stage, joined or started. -/
theorem tries_findLocal {loader : Loader} {specifier dir : String} (hServes : l.Serves loader) :
    Tries h work K (Load.findLocal loader specifier dir) fun x =>
      .landed specifier dir x.key x.module := by
  refine Tries.bind (Tries.lift (adds_pathOf _)) fun path => ?_
  refine Tries.bind (Tries.lift (adds_remembered path)) fun hit => ?_
  cases hit with
  -- By the alias, which is known to be one that the key can mean.
  | some x =>
    obtain ⟨p, i⟩ := x
    refine Tries.bind (Tries.lift (adds_register specifier i)) fun _ => Tries.pure fun m hK => ?_
    obtain ⟨⟨⟨-, hFound⟩, hIs, hCached⟩, hRegisters, hKey⟩ := hK
    obtain rfl : path = some p := hIs
    exact ⟨⟨hFound.1, hCached, hFound.2, hRegisters⟩, hKey⟩
  | none =>
    refine Tries.bind (N := fun b => .pure (LocalPath.resolve specifier dir loader.page = .ok b))
      (Tries.ofExcept fun b m hEq _ => hEq) fun basePath => ?_
    refine Tries.bind (Tries.lift (adds_resolved basePath)) fun found => ?_
    refine Tries.bind (Tries.lift (adds_remembered found)) fun hit => ?_
    have hKnown : ∀ path, LocalPath.resolve specifier dir loader.page = .ok basePath →
        l.Finds basePath path → l.Known (LocalPath.key specifier dir) path :=
      fun path hResolve hFinds =>
        ⟨specifier, dir, rfl, basePath, hServes.1 ▸ hResolve, hFinds⟩
    cases hit with
    -- By the path that was found before.
    | some x =>
      obtain ⟨p, i⟩ := x
      refine tries_land (fun m hK => hK.2.2) fun m hK => ?_
      obtain ⟨⟨⟨-, hResolve⟩, hFinds⟩, hIs, -⟩ := hK
      obtain rfl : found = some p := hIs
      exact hKnown p hResolve hFinds
    -- By the first stage.
    | none =>
      refine Tries.bind (tries_joinResolve basePath hServes) fun x =>
        tries_land (fun m hK => hK.2.1) fun m hK => ?_
      obtain ⟨⟨⟨⟨-, hResolve⟩, -⟩, -⟩, -, hFinds⟩ := hK
      exact hKnown x.key hResolve hFinds

/-! ## Section 4: Loading by name -/

/-- What is known of a name once it is decided how it is satisfied. -/
def Fact.routed (loader : Loader) (name : String) : Load.Route → Fact l.discipline t
  | .registered _ =>
    (Fact.registered name).and (.pure ¬(loader.hasLocal = true ∧ LocalPath.isLocal name = true))
  | .rule _ => .pure ¬(loader.hasLocal = true ∧ LocalPath.isLocal name = true)
  | .localModule | .unknown => .top

theorem adds_route (loader : Loader) (name : String) :
    Adds h work K (Load.route loader name) (Fact.routed loader name) := by
  unfold Load.route
  split
  · exact Adds.done fun _ _ => trivial
  · next hNot =>
    rw [Bool.and_eq_true] at hNot
    refine Adds.bind (N := Fact.onSome fun _ => .registered name) ?_ fun found => ?_
    · refine adds_read rfl fun m r w _ _ hAnswer => ?_
      cases r with
      | none => trivial
      | some i => exact (Registry.contains_iff ..).mpr ⟨i, hAnswer.store.1.symm⟩
    · cases found with
      | some i => exact Adds.done fun m hK => ⟨hK.2, hNot⟩
      | none =>
        dsimp only
        split
        · exact Adds.done fun _ _ => hNot
        · exact Adds.done fun _ _ => trivial

theorem tries_loadWithRule (loader : Loader) (name : String) (r : Rule) :
    Tries h work K (Load.loadWithRule loader name r) fun _ => .registered name := by
  unfold Load.loadWithRule
  dsimp only
  split
  -- The rule does not cover the name, and nothing comes after the failure.
  · exact Tries.bind (N := fun _ => .pure False) Tries.throw fun _ =>
      Triple.of_false fun m hK => hK.2
  · refine Tries.bind (Load.searches_resolveIcon loader r name _).nameless.remote.free.tries fun url => ?_
    refine Tries.bind (Load.nameless_loadIcon r _ url).remote.free.tries fun x => ?_
    refine Tries.bind (Tries.lift (Load.free_store rfl).adds) fun i => ?_
    refine Tries.bind (Tries.lift (adds_register (r.icon name) i)) fun _ => ?_
    refine Tries.bind (Tries.lift (adds_register name i)) fun _ => ?_
    refine Tries.bind (Tries.lift (Load.free_info _ _).adds) fun _ => ?_
    exact Tries.pure fun m hK => hK.1.2.2

/-- A name that is found in the registry, or loaded under a rule, is registered; a local one that
    goes by its directory has landed. -/
theorem tries_requireLoaded {loader : Loader} {name : String} {dir : Option String}
    (hServes : l.Serves loader) :
    Tries h work K (Load.requireLoaded loader name dir) fun x =>
      .lasting (fun m => m.Satisfied l t loader name dir x) fun hLater hDone =>
        hDone.later hLater := by
  refine Tries.bind (Tries.lift (adds_route loader name)) fun route => ?_
  cases route with
  | registered i =>
    exact Tries.pure fun m hK => ⟨hK.2.1, fun hHas hLocal => absurd ⟨hHas, hLocal⟩ hK.2.2⟩
  | localModule =>
    exact (tries_findLocal hServes).imp fun x m _ hLanded => ⟨hLanded.2, fun _ _ => hLanded.1⟩
  | rule r =>
    refine Tries.bind (tries_loadWithRule loader name r) fun i => Tries.pure fun m hK => ?_
    exact ⟨hK.2, fun hHas hLocal => absurd ⟨hHas, hLocal⟩ hK.1.2⟩
  | unknown => exact Tries.throw

/-! ## Section 5: Loading ahead -/

theorem adds_spawn (new : Work) (hServes : l.Serves new.loader)
    (hStage : new.job.isStage = false) :
    Adds h work K (Load.op (.spawn new)) fun k =>
      .lasting (fun m => .act t (.spawn new) k ∈ m.past ∧ m.workOf? k = some new)
        fun hLater hSpawned => ⟨hLater.past _ hSpawned.1, hLater.work k _ hSpawned.2⟩ := by
  refine adds_op rfl (fun _ _ _ _ => ⟨hServes, hStage⟩) fun m k w _ _ _ hAnswer => ?_
  obtain ⟨rfl, rfl⟩ := hAnswer.spawn
  exact ⟨List.mem_cons_self, (World.starts_start new).workOf?_new⟩

/-- Each of the jobs has a task. -/
def Fact.spawned (loader : Loader) (jobs : List Job) (ts : List TaskId) : Fact l.discipline t :=
  .lasting (fun m => ∀ job ∈ jobs, ∃ k ∈ ts, .act t (.spawn ⟨loader, job⟩) k ∈ m.past ∧
      m.workOf? k = some ⟨loader, job⟩) fun hLater hSpawned job hJob => by
    obtain ⟨k, hMem, hSpawn, hWork⟩ := hSpawned job hJob
    exact ⟨k, hMem, hLater.past _ hSpawn, hLater.work k _ hWork⟩

theorem adds_spawnAll {loader : Loader} {jobs : List Job} (hServes : l.Serves loader)
    (hStage : ∀ job ∈ jobs, job.isStage = false) :
    Adds h work K (Load.spawnAll loader jobs) (Fact.spawned loader jobs) := by
  induction jobs generalizing K with
  | nil => exact Adds.done fun m _ job hJob => by cases hJob
  | cons job jobs ih =>
    have hHead : job.isStage = false := hStage job List.mem_cons_self
    have hTail : ∀ j ∈ jobs, j.isStage = false := fun j hj => hStage j (List.mem_cons_of_mem _ hj)
    refine Adds.bind (adds_spawn ⟨loader, job⟩ hServes hHead) fun k => ?_
    refine Adds.bind (ih hTail) fun ts => Adds.done fun m hK => ?_
    obtain ⟨⟨-, hSpawn⟩, hSpawned⟩ := hK
    intro j hj
    rcases List.mem_cons.mp hj with rfl | hj
    · exact ⟨k, List.mem_cons_self, hSpawn⟩
    · obtain ⟨k', hMem, hOther⟩ := hSpawned j hj
      exact ⟨k', List.mem_cons_of_mem _ hMem, hOther⟩

/-- All specifiers of the source have been loaded. -/
def Fact.supplied (loader : Loader) (source : String) (dir : Option String) :
    Fact l.discipline t :=
  .lasting (fun m => ∀ s ∈ Source.specifiers source, m.Supplied l t loader s dir)
    fun hLater hSupplied s hs => (hSupplied s hs).later hLater

/-- **Loading ahead leaves nothing out**: when it succeeds, every specifier of the source has been
    loaded, by a task of its own. -/
theorem tries_preload {loader : Loader} {source : String} {dir : Option String}
    (hServes : l.Serves loader) :
    Tries h work K (Load.preload loader source dir) fun _ => .supplied loader source dir := by
  unfold Load.preload
  split
  · next hNone => exact Tries.pure fun m _ s hs => by simp [hNone] at hs
  · next specs _ =>
    refine Tries.mk (Adds.bind (adds_spawnAll hServes ?_) fun ts => ?_)
    · intro job hJob
      obtain ⟨s, -, rfl⟩ := List.mem_map.mp hJob
      rfl
    refine adds_read rfl fun m r w hHolds hK hAnswer => ?_
    cases r with
    | error e => trivial
    | ok u =>
      refine ⟨trivial, fun s hs => ?_⟩
      -- The task of the specifier is among those that have succeeded.
      obtain ⟨k, hMem, hSpawn, hWork⟩ := hK.2 (.member s dir) (List.mem_map_of_mem hs)
      obtain ⟨x, hOutcome⟩ := Join.all_eq_ok hAnswer.allOk.1 _ (List.mem_map_of_mem hMem)
      obtain ⟨y, rfl, hSatisfied⟩ := hHolds.post hWork hOutcome x rfl
      exact ⟨k, y, hSpawn, hWork, hOutcome, hSatisfied⟩

theorem adds_preloadDynamic {loader : Loader} {source : String} (hServes : l.Serves loader) :
    Adds h work K (Load.preloadDynamic loader source) fun _ => .top := by
  unfold Load.preloadDynamic
  split
  · exact Adds.done fun _ _ => trivial
  · refine Adds.bind (adds_spawnAll hServes ?_) fun ts => ?_
    · intro job hJob
      obtain ⟨s, -, rfl⟩ := List.mem_map.mp hJob
      rfl
    exact Adds.bind (Load.free_op rfl).adds fun results => (Load.searches_noteFailed _).nameless.remote.remote_free.adds

/-! ## Section 6: The two stages -/

theorem tries_fetchText (url : String) :
    Tries h work K (Load.fetchText url) fun body =>
      .lasting (fun m => ∃ r : Response, .act t (.reply .get url) (.ok r) ∈ m.past ∧ r.body = body)
        fun hLater hFetched => by
          obtain ⟨r, hReply, hBody⟩ := hFetched
          exact ⟨r, hLater.past _ hReply, hBody⟩ := by
  unfold Load.fetchText Load.request
  refine Tries.bind (N := fun r => .made (.act t (.reply .get url) (.ok r))) ?_ fun r => ?_
  · refine Tries.mk (Adds.bind (Load.free_op rfl).adds fun _ => ?_)
    refine adds_free rfl fun m r w _ _ _ => ?_
    cases r with
    | error e => trivial
    | ok r => exact ⟨trivial, List.mem_cons_self⟩
  · split
    · exact Tries.pure fun m hK => ⟨r, hK.2, rfl⟩
    · exact Tries.throw

/-- A source that is found is found at a candidate. -/
theorem tries_fetchFirst {loader : Loader} (hServes : l.Serves loader) (basePath : String)
    {rest : List String} (hRest : ∀ path ∈ rest, path ∈ LocalPath.candidates l.extensions basePath)
    (all : List String) :
    Tries h work K (Load.fetchFirst loader basePath all rest) fun x =>
      .pure (l.Finds basePath x.1) := by
  induction rest generalizing K with
  | nil => exact Tries.bind (Tries.lift (Load.free_warn _ _).adds) fun _ => Tries.throw
  | cons path rest ih =>
    have hTail : ∀ p ∈ rest, p ∈ LocalPath.candidates l.extensions basePath :=
      fun p hp => hRest p (List.mem_cons_of_mem _ hp)
    unfold Load.fetchFirst
    split
    · exact ih hTail
    · next u hJoin =>
      refine Tries.bind (tries_fetchText u.href).outcome fun outcome => ?_
      cases outcome with
      | error e => exact ih hTail
      | ok source =>
        refine Tries.pure fun m _ => ⟨hRest path List.mem_cons_self, u, ?_⟩
        rw [← hServes.1, hJoin]

/-- The second stage is joined or started, or its module is there. -/
theorem adds_shareExecute {loader : Loader} (path source : String) (hServes : l.Serves loader) :
    Adds h work K (Load.op (.shareExecute loader path source)) fun r =>
      .lasting (fun m => match r with
        | .inl i => m.Cached path i
        | .inr k => m.Executes k path) fun hLater hShared => by
          cases r with
          | inl i => exact hLater.cached path i hShared
          | inr k => exact hLater.executes hShared := by
  refine adds_op rfl (fun _ _ _ _ => hServes) fun m r w hHolds _ _ hAnswer => ?_
  have hInv : LocalInv l m := hHolds.inv
  rcases hAnswer.shareExecute with ⟨k, rfl, hJoin, rfl⟩ | ⟨i, rfl, -, hCached, rfl⟩ | ⟨rfl, -, -, rfl⟩
  · exact hInv.executing path k hJoin
  · exact hCached
  · exact ⟨loader, source, (World.starts_start _).workOf?_new⟩

theorem tries_findAndExecute {loader : Loader} (basePath : String) (hServes : l.Serves loader) :
    Tries h work K (Load.findAndExecute loader basePath) fun x =>
      (Fact.cached x.key x.module).and (.pure (l.Finds basePath x.key)) := by
  refine Tries.bind (N := fun x => .pure (l.Finds basePath x.1)) ?_ fun x => ?_
  · refine tries_fetchFirst hServes basePath (fun path hPath => ?_) _
    rwa [← hServes.2]
  obtain ⟨path, source⟩ := x
  refine Tries.bind (N := fun _ => .top) (Tries.lift (adds_op rfl ?_ ?_)) fun _ => ?_
  · exact fun m _ _ hK => hK.2
  · exact fun _ _ _ _ _ _ _ => trivial
  refine Tries.bind (Tries.lift (adds_shareExecute path source hServes)) fun r => ?_
  cases r with
  | inl i => exact Tries.pure fun m hK => ⟨hK.2, hK.1.1.2⟩
  -- Whoever executes the path leaves its module in the cache, also for another loader.
  | inr k =>
    refine tries_await fun m x hHolds hK hOutcome => ?_
    obtain ⟨⟨⟨-, hFinds⟩, -⟩, loader', source', hWork⟩ := hK
    obtain ⟨-, hOk⟩ := hHolds.post hWork hOutcome
    obtain ⟨i, hIs, hCached⟩ := hOk _ rfl
    obtain rfl := Option.some.inj hIs
    exact ⟨hCached, hFinds⟩

/-- What is left of the run of a source: it was compiled, and executed with these exports. -/
def Fact.ran (path source : String) (exports : Json) : Fact l.discipline t :=
  .lasting (fun m => ∃ compiled, .act t (.host (.compile path source)) (.ok compiled) ∈ m.past ∧
      .act t (.host (.execute compiled)) (.ok exports) ∈ m.past) fun hLater hRan => by
    obtain ⟨compiled, hCompile, hExecute⟩ := hRan
    exact ⟨compiled, hLater.past _ hCompile, hLater.past _ hExecute⟩

/-- **A module is executed when all that it imports is there**, and not before. -/
theorem tries_runSource (work : Work) {path source dir : String} (hServes : l.Serves work.loader)
    (hRuns : ∀ m, K m → m.Runs t work.loader work.job path source dir) :
    Tries h work K (Load.runSource work.loader path source dir) fun exports =>
      .ran path source exports := by
  refine Tries.bind (tries_preload hServes) fun _ => ?_
  refine Tries.bind (N := fun c => .made (.act t (.host (.compile path source)) (.ok c))) ?_
    fun compiled => ?_
  · refine Tries.mk (adds_free rfl fun m r w _ _ _ => ?_)
    cases r with
    | error e => trivial
    | ok compiled => exact ⟨trivial, List.mem_cons_self⟩
  · refine Tries.mk (adds_op rfl (fun m _ _ hK => ?_) fun m r w _ hK _ _ => ?_)
    -- This is where the discipline asks for the dependencies.
    · exact ⟨path, source, dir, hRuns m hK.1.1, hK.2, hK.1.2⟩
    · cases r with
      | error e => trivial
      | ok exports =>
        exact ⟨trivial, compiled, List.mem_cons_of_mem _ hK.2, List.mem_cons_self⟩

/-- The task holds the entry of the path, and nothing is cached there yet. -/
def Fact.vacant (path : String) : Fact l.discipline t :=
  ⟨fun m => m.store.executing.get? path = some t ∧ m.store.cache.get? path = none,
    fun hRely hVacant =>
      ⟨hRely.executing path hVacant.1, hRely.uncached path hVacant.1 hVacant.2⟩⟩

/-- The holder of an empty place writes the cache. That the place is empty is not so any more then,
    and so this is no addition to what is known. -/
theorem triple_setCached {path source : String} {exports : Json} {i : Instance}
    {loader : Loader} (hExposed : i.exposed = Namespace.ofValue exports) :
    Triple h ⟨loader, .execute path source⟩
      ((Fact.vacant path : Fact l.discipline t).and (.ran path source exports))
      (Load.store (.setCached path i)) fun _ => .cached path i := by
  refine Triple.op fun m _ hLive hK => ?_
  have hLive : LocalLive ⟨loader, .execute path source⟩ t m := hLive
  obtain ⟨⟨hHeld, hNone⟩, compiled, hCompile, hExecute⟩ := hK
  refine ⟨⟨hHeld, hNone, t, loader, source, compiled, exports, hLive.isWork, hCompile, hExecute,
    hExposed⟩, fun r w hAnswer => ?_⟩
  obtain ⟨-, rfl⟩ := hAnswer.store
  exact ⟨⟨hLive.isWork, hLive.holding⟩, Table.get?_insert_self ..⟩

/-- **The second stage** comes to the module that it has cached. -/
theorem triple_executeSource {loader : Loader} {path source : String} (hServes : l.Serves loader) :
    Triple h ⟨loader, .execute path source⟩ (Fact.vacant path : Fact l.discipline t)
      (Load.executeSource loader path source).run
      (Fact.top.onOk fun x => (Fact.pure (x.key = path)).and (.cached path x.module)) := by
  refine Tries.andThen (tries_runSource ⟨loader, .execute path source⟩ hServes
    fun m _ => .execute path source) fun exports => ?_
  refine Tries.andThen (N := fun i => .pure (i.exposed = Namespace.ofValue exports))
    (Tries.lift (adds_read rfl fun m i w _ _ hAnswer => ?_)) fun i => ?_
  · obtain ⟨rfl, -⟩ := hAnswer.store
    rfl
  -- What is known of `i` does not depend on the moment, so it can be had before the next operation.
  by_cases hExposed : i.exposed = Namespace.ofValue exports
  · refine Triple.bind (Q := Fact.top.onOk fun _ => .cached path i) (Triple.bind
      ((triple_setCached hExposed).conseq (fun _ hK => hK.1) fun _ _ hQ => hQ) fun _ =>
        Triple.done fun _ hK => ⟨trivial, hK⟩) fun r => ?_
    cases r with
    | error e => exact Triple.done fun _ _ => trivial
    | ok u =>
      refine Tries.andThen (Tries.lift (adds_register path i)) fun _ => ?_
      exact Triple.done fun _ hK => ⟨trivial, rfl, hK.1.2⟩
  · exact Triple.of_false fun _ hK => hExposed hK.2

theorem tries_runEntry {loader : Loader} {entry dir : String} (hServes : l.Serves loader)
    (hWork : work = ⟨loader, .enter entry dir⟩) :
    Tries h work K (Load.runEntry loader entry dir) fun _ => .top := by
  subst hWork
  refine Tries.bind (N := fun u => .pure (loader.page.join entry = .ok u))
    (Tries.ofExcept fun u m hEq _ => hEq) fun u => ?_
  refine Tries.bind (tries_fetchText u.href) fun source => ?_
  refine Tries.bind (Tries.lift (adds_preloadDynamic hServes)) fun _ => ?_
  refine Tries.bind (tries_runSource ⟨loader, .enter entry dir⟩ hServes
    fun m hK => ?_) fun exports => ?_
  · obtain ⟨⟨⟨-, hJoin⟩, r, hFetch, rfl⟩, -⟩ := hK
    exact .enter hJoin hFetch
  · exact Tries.bind (Tries.lift (Load.free_info _ _).adds) fun _ =>
      Tries.lift (Load.free_store rfl).adds

/-! ## Section 7: Pieces of work -/

section Work

variable {m : Moment} {α : Type}

/-- A stage gives up its entry at its end, whatever it came to. What is to hold then is shown from
    what its program has left, which has to last, and from the entry being gone. -/
theorem safe_stage {p : Attempt Loaded} {last : StoreOp} {N : Loaded → Fact l.discipline t}
    (hTriple : Triple h work K p.run (Fact.top.onOk N)) (hK : K m) (hLive : LocalLive work t m)
    (hMay : ∀ m, LocalLive work t m → LocalMay l work t (.store last) m)
    (hEnd : ∀ r m u m', Fact.top.onOk N r m → Moment.Later m m' → t < m.tasks.length →
      LocalRely t (m.act t (.store last) u (m.withStore (last.apply m.store).2)) m' →
      LocalPost l work t (r.map some) m') :
    l.discipline.Safe h work t (LocalPost l work t)
      (do let r ← Load.thenEnd p last; return r.map some) m := by
  refine Discipline.Safe.bind (Q := fun (r : Except Failure Loaded) m' => ∀ m'',
    LocalRely t m' m'' → LocalPost l work t (r.map some) m'') ?_ fun r m' hPost => .done hPost
  refine (hTriple m hK hLive).bind fun r m' hQ => ?_
  refine .ask (fun m'' hRely => localLive_stable hRely hQ.2)
    (fun m'' hRely _ => hMay m'' (localLive_stable hRely hQ.2)) fun m'' u w hRely _ hAnswer => ?_
  have hLive' : LocalLive work t m'' := localLive_stable hRely hQ.2
  have hLater := later_act (hMay m'' hLive') hAnswer
  obtain ⟨-, rfl⟩ := hAnswer.store
  -- Two moments: when the task is seen to be done, and when its outcome is looked at.
  refine .done fun m₁ hFirst m₂ hThen => ?_
  have hLast := hFirst.trans hThen
  exact hEnd r m'' u m₂ ((Fact.top.onOk N r).stable hRely hQ.1) (hLater.trans hLast.later)
    (World.lt_of_workOf? hLive'.isWork) hLast

/-- Any other work is to leave what its program leaves. -/
theorem safe_job {p : Attempt α} {N : α → Fact l.discipline t} {f : Except Failure α → Load Outcome}
    {g : Except Failure α → Outcome} (hTries : Tries h work Fact.top p N)
    (hLive : LocalLive work t m) (hDone : ∀ r, f r = .done (g r))
    (hOk : ∀ a m, N a m → LocalPost l work t (g (.ok a)) m)
    (hError : ∀ e m, LocalPost l work t (g (.error e)) m) :
    l.discipline.Safe h work t (LocalPost l work t) (p.run >>= f) m := by
  refine (hTries m trivial hLive).bind fun r m' hQ => ?_
  rw [hDone]
  cases r with
  | ok a => exact .done fun m'' hRely => hOk a m'' ((N a).stable hRely hQ.1.2)
  | error e => exact .done fun m'' _ => hError e m''

/-- **The program of every piece of work keeps the discipline.** -/
theorem safe_program (hPre : LocalPre l work t m) :
    l.discipline.Safe h work t (LocalPost l work t) work.program m := by
  obtain ⟨hServes, hLive, hUncached⟩ := hPre
  obtain ⟨loader, job⟩ := work
  cases job with
  -- The two stages have held their entries, and have given them up for good.
  | resolve basePath =>
    refine safe_stage (tries_findAndExecute (K := Fact.top) basePath hServes) trivial hLive
      (fun m hLive => hLive.holding) fun r m u m' hQ hLater hLt hRely => ⟨?_, ?_⟩
    · exact hRely.notResolving hLt basePath (by simp [Moment.act, World.withStore, StoreOp.apply])
    · cases r with
      | error e => rintro x ⟨⟩
      | ok x =>
        obtain ⟨-, hCached, hFinds⟩ := hQ
        rintro - ⟨⟩
        exact ⟨x.key, x.module, rfl, hLater.cached _ _ hCached, hFinds⟩
  | execute path source =>
    refine safe_stage (triple_executeSource hServes) ⟨hLive.holding, hUncached path source rfl⟩
      hLive (fun m hLive => hLive.holding) fun r m u m' hQ hLater hLt hRely => ⟨?_, ?_⟩
    · exact hRely.notExecuting hLt path (by simp [Moment.act, World.withStore, StoreOp.apply])
    · cases r with
      | error e => rintro x ⟨⟩
      | ok x =>
        obtain ⟨-, rfl, hCached⟩ := hQ
        rintro - ⟨⟩
        exact ⟨x.module, rfl, hLater.cached _ _ hCached⟩
  -- All other work leaves what its program does.
  | member name dir =>
    refine safe_job (g := fun r => (r.map some).mapError (.preload name))
      (tries_requireLoaded hServes) hLive (fun r => by cases r <;> rfl)
      (fun x m hDone y hIs => ?_) fun e m x hIs => by cases hIs
    exact ⟨x, (Except.ok.inj hIs).symm, hDone⟩
  | call name dir =>
    refine safe_job (tries_requireLoaded hServes) hLive (fun _ => rfl) (fun x m hDone y hIs => ?_)
      fun e m x hIs => by cases hIs
    exact ⟨x, (Except.ok.inj hIs).symm, hDone⟩
  | load specifier dir =>
    refine safe_job (tries_findLocal hServes) hLive (fun _ => rfl) (fun x m hDone y hIs => ?_)
      fun e m x hIs => by cases hIs
    exact ⟨x, (Except.ok.inj hIs).symm, hDone.1⟩
  | tool d =>
    exact safe_job (Load.nameless_loadTool loader d).remote.free.tries hLive (fun _ => rfl) (fun _ _ _ => trivial)
      fun _ _ => trivial
  | preload source dir =>
    exact safe_job (tries_preload hServes) hLive (fun _ => rfl) (fun _ _ _ => trivial)
      fun _ _ => trivial
  | enter entry dir =>
    exact safe_job (tries_runEntry hServes rfl) hLive (fun _ => rfl) (fun _ _ _ => trivial)
      fun _ _ => trivial

/-- The discipline of local modules is kept by whatever a page is asked for. -/
theorem Loader.lawful (l : Loader) (h : Host) : l.discipline.Lawful h l.Asks where
  goOn p hOpen := rely_goOn p hOpen
  act p hHolds hTask hMay hAnswer := keeps_act p hHolds hTask hMay hAnswer
  begin hHolds hAsks := keeps_begin hHolds hAsks
  program hPre := safe_program hPre

end Work

end Bundleless
