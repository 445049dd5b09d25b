import Bundleless.Proofs.LocalFacts

/-! # The discipline of local modules

    What the tasks of a page agree on about the tables of local modules, and
    why every operation leaves it so. Two rules carry everything:

    - a task that executes a path holds the entry of the path in `executing`
      from its start to its end, and only the holder writes the cache of the
      path, and once;
    - an alias is written for a path that is cached already.

    Section 2 shows that what the others count on survives each operation,
    Section 3 that the invariant does, and Section 4 puts them together. That
    the programs do nothing else is shown apart from this.
-/

namespace Bundleless

/-! ## Section 1: The discipline -/

/-- What always holds of the tables of local modules and of the tasks. -/
structure LocalInv (l : Loader) (m : Moment) : Prop where
  aliases : ∀ key path, m.store.aliases.get? key = some path →
    (∃ i, m.Cached path i) ∧ l.Known key path
  resolved : ∀ basePath path, m.store.resolved.get? basePath = some path → l.Finds basePath path
  cache : ∀ path i, m.Cached path i → m.Executed path i
  resolving : ∀ basePath t, m.store.resolving.get? basePath = some t → m.Resolves t basePath
  executing : ∀ path t, m.store.executing.get? path = some t → m.Executes t path
  /-- A path is executed again only when all who executed it before have failed. -/
  again : ∀ j k path, j < k → m.Executes j path → m.Executes k path →
    ∃ e, m.outcome? j = some (.error e)

/-- What a task can count on: what holds for good, and what it holds itself. -/
structure LocalRely (t : TaskId) (m m' : Moment) : Prop where
  later : Moment.Later m m'
  /-- The entry of a path is the task's as long as it does not give it up. -/
  executing : ∀ path, m.store.executing.get? path = some t →
    m'.store.executing.get? path = some t
  /-- Only the holder writes the cache. -/
  uncached : ∀ path, m.store.executing.get? path = some t → m.store.cache.get? path = none →
    m'.store.cache.get? path = none
  resolving : ∀ basePath, m.store.resolving.get? basePath = some t →
    m'.store.resolving.get? basePath = some t
  /-- An entry that is not the task's does not become so. -/
  notExecuting : t < m.tasks.length → ∀ path, m.store.executing.get? path ≠ some t →
    m'.store.executing.get? path ≠ some t
  notResolving : t < m.tasks.length → ∀ basePath, m.store.resolving.get? basePath ≠ some t →
    m'.store.resolving.get? basePath ≠ some t

theorem LocalRely.refl (t : TaskId) (m : Moment) : LocalRely t m m :=
  ⟨.refl m, fun _ h => h, fun _ _ h => h, fun _ h => h, fun _ _ h => h, fun _ _ h => h⟩

theorem LocalRely.trans {t : TaskId} {m m' m'' : Moment} (hFirst : LocalRely t m m')
    (hThen : LocalRely t m' m'') : LocalRely t m m'' where
  later := hFirst.later.trans hThen.later
  executing path hHeld := hThen.executing path (hFirst.executing path hHeld)
  uncached path hHeld hNone :=
    hThen.uncached path (hFirst.executing path hHeld) (hFirst.uncached path hHeld hNone)
  resolving basePath hHeld := hThen.resolving basePath (hFirst.resolving basePath hHeld)
  notExecuting hLt path hNot :=
    hThen.notExecuting (Nat.lt_of_lt_of_le hLt hFirst.later.size) path
      (hFirst.notExecuting hLt path hNot)
  notResolving hLt basePath hNot :=
    hThen.notResolving (Nat.lt_of_lt_of_le hLt hFirst.later.size) basePath
      (hFirst.notResolving hLt basePath hNot)

/-- The job is one of the two stages of a local module. -/
def Job.isStage : Job → Bool
  | .resolve _ | .execute .. => true
  | _ => false

theorem Job.isStage_of_isAsked {job : Job} (hAsked : job.isAsked = true) : job.isStage = false := by
  cases job <;> simp_all [isAsked, isStage]

theorem Job.ne_execute_of_isStage {job : Job} (hStage : job.isStage = false)
    (path source : String) : job ≠ .execute path source := by
  rintro rfl
  simp [isStage] at hStage

/-- The task of a stage holds its entry. -/
def Moment.Holding (m : Moment) (work : Work) (t : TaskId) : Prop :=
  match work.job with
  | .resolve basePath => m.store.resolving.get? basePath = some t
  | .execute path _ => m.store.executing.get? path = some t
  | _ => True

/-- A stage holds its entry while it is under way. -/
structure LocalLive (work : Work) (t : TaskId) (m : Moment) : Prop where
  isWork : m.workOf? t = some work
  holding : m.Holding work t

/-- What a task finds when it is started. -/
structure LocalPre (l : Loader) (work : Work) (t : TaskId) (m : Moment) : Prop where
  serves : l.Serves work.loader
  live : LocalLive work t m
  uncached : ∀ path source, work.job = .execute path source → m.store.cache.get? path = none

/-- What holds for good once a task is done. -/
def LocalPost (l : Loader) (work : Work) (t : TaskId) (r : Outcome) (m : Moment) : Prop :=
  match work.job with
  | .resolve basePath => m.store.resolving.get? basePath ≠ some t ∧
      ∀ x, r = .ok x → ∃ path i, x = some ⟨path, i⟩ ∧ m.Cached path i ∧ l.Finds basePath path
  | .execute path _ => m.store.executing.get? path ≠ some t ∧
      ∀ x, r = .ok x → ∃ i, x = some ⟨path, i⟩ ∧ m.Cached path i
  | .member name dir | .call name dir => ∀ x, r = .ok x →
      ∃ y, x = some y ∧ m.Satisfied l t work.loader name dir y
  | .load specifier dir => ∀ x, r = .ok x →
      ∃ y, x = some y ∧ m.Landed l t specifier dir y.key y.module
  | .tool _ | .preload .. | .enter .. => True

/-- When a task may carry out an operation. -/
def LocalMay (l : Loader) (work : Work) (t : TaskId) (o : Op) (m : Moment) : Prop :=
  match o with
  | .store (.setAlias key path) => (∃ i, m.Cached path i) ∧ l.Known key path
  | .store (.setResolved basePath path) => l.Finds basePath path
  | .store (.setCached path i) => m.store.executing.get? path = some t ∧
      m.store.cache.get? path = none ∧ m.Executed path i
  | .store (.endResolve basePath) => m.store.resolving.get? basePath = some t
  | .store (.endExecute path) => m.store.executing.get? path = some t
  | .store .clear => False
  | .spawn w => l.Serves w.loader ∧ w.job.isStage = false
  | .shareResolve l' _ | .shareExecute l' _ _ => l.Serves l'
  | .host (.execute compiled) => m.Ready l work t compiled
  | _ => True

theorem localLive_stable {work : Work} {t : TaskId} {m m' : Moment} (hRely : LocalRely t m m')
    (hLive : LocalLive work t m) : LocalLive work t m' := by
  refine ⟨hRely.later.work t _ hLive.isWork, ?_⟩
  have hHolding := hLive.holding
  obtain ⟨loader, job⟩ := work
  cases job with
  | resolve basePath => exact hRely.resolving basePath hHolding
  | execute path source => exact hRely.executing path hHolding
  | _ => trivial

/-- The discipline of local modules, for all loaders that share those of `l`. -/
def Loader.discipline (l : Loader) : Discipline where
  inv := LocalInv l
  rely := LocalRely
  pre := LocalPre l
  live := LocalLive
  post := LocalPost l
  may := LocalMay l
  rely_refl := LocalRely.refl
  rely_trans := LocalRely.trans
  live_stable := localLive_stable

/-! ## Section 2: What the others count on -/

section Steps

variable {l : Loader} {h : Host} {work : Work} {t : TaskId} {m : Moment} {w : World} {o : Op}
  {r : o.Reply}

/-- Nothing that holds for good is taken back by an operation that the discipline allows. -/
theorem later_act (hMay : LocalMay l work t o m) (hAnswer : o.Answers h m.toWorld r w) :
    Moment.Later m (m.act t o r w) := by
  obtain ⟨works, hStarts⟩ := hAnswer.starts
  have hPast : ∀ step ∈ m.past, step ∈ (m.act t o r w).past :=
    fun step hStep => List.mem_cons_of_mem _ hStep
  cases hAnswer.effect with
  | quiet hSame =>
    refine Moment.later_of_starts hPast hStarts (fun path i hCached => ?_) hSame.registered
    simpa [Moment.Cached, Moment.act, hSame.cache] using hCached
  -- Nothing that is cached is overwritten: a task may write only where nothing is.
  | setCached path i =>
    obtain ⟨-, hNone, -⟩ := hMay
    exact Moment.later_of_starts hPast hStarts
      (fun _ _ => Table.get?_insert_of_none hNone) fun _ hKey => hKey
  | clear => exact absurd hMay id
  | _ => exact Moment.later_of_starts hPast hStarts (fun _ _ hC => hC) fun _ hKey => hKey

/-- The operation gives up what its task holds, or writes the cache. No other task does this to
    what is not its own. -/
def Op.isOwn : Op → Bool
  | .store (.setCached ..) | .store (.endResolve _) | .store (.endExecute _) => true
  | _ => false

/-- Where the tables of the stages and the cache stay, everybody keeps what they hold. -/
theorem LocalRely.of_tables {k : TaskId} {m' : Moment} (hLater : Moment.Later m m')
    (hExecuting : m'.store.executing = m.store.executing)
    (hCache : m'.store.cache = m.store.cache)
    (hResolving : m'.store.resolving = m.store.resolving) : LocalRely k m m' where
  later := hLater
  executing path hHeld := by rw [hExecuting, hHeld]
  uncached path _ hNone := by rw [hCache, hNone]
  resolving basePath hHeld := by rw [hResolving, hHeld]
  notExecuting _ path hNot := by rwa [hExecuting]
  notResolving _ basePath hNot := by rwa [hResolving]

/-- Who holds something holds it still after an operation of another task, or after an operation
    that gives nothing up. -/
theorem rely_act {k : TaskId} (hMay : LocalMay l work t o m)
    (hAnswer : o.Answers h m.toWorld r w) (hLt : k < m.tasks.length)
    (hOther : o.isOwn = true → k ≠ t) : LocalRely k m (m.act t o r w) := by
  have hLater := later_act hMay hAnswer
  have hNew : m.tasks.length ≠ k := Nat.ne_of_gt hLt
  cases hAnswer.effect with
  | quiet hSame => exact .of_tables hLater hSame.executing hSame.cache hSame.resolving
  | setAlias | setResolved | spawn => exact .of_tables hLater rfl rfl rfl
  | setCached path i =>
    -- The writer holds the entry of its path, so it is not the path that `k` holds.
    obtain ⟨hHeld, -, -⟩ := hMay
    have hUncached : ∀ p, m.store.executing.get? p = some k → m.store.cache.get? p = none →
        (m.store.cache.insert path i).get? p = none := by
      intro p hMine hNone
      have hNe : path ≠ p := by
        rintro rfl
        exact hOther rfl (Option.some.inj (hMine.symm.trans hHeld))
      rw [Table.get?_insert, if_neg hNe, hNone]
    exact ⟨hLater, fun _ h => h, hUncached, fun _ h => h, fun _ _ h => h, fun _ _ h => h⟩
  | endResolve basePath =>
    exact ⟨hLater, fun _ h => h, fun _ _ h => h,
      fun _ => Table.get?_erase_of_ne hMay (hOther rfl).symm, fun _ _ h => h,
      fun _ _ => Table.get?_erase_ne⟩
  | endExecute path =>
    exact ⟨hLater, fun _ => Table.get?_erase_of_ne hMay (hOther rfl).symm, fun _ _ h => h,
      fun _ h => h, fun _ _ => Table.get?_erase_ne, fun _ _ h => h⟩
  | clear => exact absurd hMay id
  | startResolve loader basePath hVacant =>
    exact ⟨hLater, fun _ h => h, fun _ _ h => h, fun _ => Table.get?_insert_of_none hVacant,
      fun _ _ h => h, fun _ _ => Table.get?_insert_ne hNew⟩
  | startExecute loader path source hVacant =>
    exact ⟨hLater, fun _ => Table.get?_insert_of_none hVacant, fun _ _ h => h, fun _ h => h,
      fun _ _ => Table.get?_insert_ne hNew, fun _ _ h => h⟩

/-! ## Section 3: The invariant -/

/-- What is new at a later moment is as the invariant says: the entries of the tables, and at most
    one task. Nothing has to be said of a table that stays as it was. -/
structure LocalNews (l : Loader) (m m' : Moment) : Prop where
  aliases : ∀ key path, m'.store.aliases.get? key = some path →
    m.store.aliases.get? key = some path ∨ (∃ i, m'.Cached path i) ∧ l.Known key path := by
      exact fun _ _ => Or.inl
  resolved : ∀ basePath path, m'.store.resolved.get? basePath = some path →
    m.store.resolved.get? basePath = some path ∨ l.Finds basePath path := by
      exact fun _ _ => Or.inl
  cache : ∀ path i, m'.Cached path i → m.Cached path i ∨ m'.Executed path i := by
    exact fun _ _ => Or.inl
  resolving : ∀ basePath k, m'.store.resolving.get? basePath = some k →
    m.store.resolving.get? basePath = some k ∨ m'.Resolves k basePath := by
      exact fun _ _ => Or.inl
  executing : ∀ path k, m'.store.executing.get? path = some k →
    m.store.executing.get? path = some k ∨ m'.Executes k path := by
      exact fun _ _ => Or.inl
  tasks : ∀ k work, m'.workOf? k = some work → m.workOf? k = some work ∨
    k = m.tasks.length ∧ ∀ path source, work.job = .execute path source →
      ∀ j, m.Executes j path → ∃ e, m.outcome? j = some (.error e) := by
        exact fun _ _ => Or.inl

/-- The invariant lasts where all that is new is as it says. -/
theorem LocalInv.grow {m' : Moment} (hInv : LocalInv l m) (hLater : Moment.Later m m')
    (hNews : LocalNews l m m') : LocalInv l m' where
  aliases key path hGet := by
    rcases hNews.aliases key path hGet with hOld | hNew
    · obtain ⟨⟨i, hCached⟩, hKnown⟩ := hInv.aliases key path hOld
      exact ⟨⟨i, hLater.cached path i hCached⟩, hKnown⟩
    · exact hNew
  resolved basePath path hGet := by
    rcases hNews.resolved basePath path hGet with hOld | hNew
    · exact hInv.resolved basePath path hOld
    · exact hNew
  cache path i hCached := by
    rcases hNews.cache path i hCached with hOld | hNew
    · exact (hInv.cache path i hOld).later hLater
    · exact hNew
  resolving basePath k hGet := by
    rcases hNews.resolving basePath k hGet with hOld | hNew
    · exact hLater.resolves (hInv.resolving basePath k hOld)
    · exact hNew
  executing path k hGet := by
    rcases hNews.executing path k hGet with hOld | hNew
    · exact hLater.executes (hInv.executing path k hOld)
    · exact hNew
  again j k path hLt hFirst hThen := by
    -- The later of the two tasks may be the new one; the earlier one is old.
    obtain ⟨loader, source, hThen⟩ := hThen
    obtain ⟨loader', source', hFirst⟩ := hFirst
    have hOld : m.workOf? j = some ⟨loader', .execute path source'⟩ := by
      rcases hNews.tasks j _ hFirst with hOld | ⟨rfl, -⟩
      · exact hOld
      · rcases hNews.tasks k _ hThen with hOldK | ⟨rfl, -⟩
        · exact absurd hLt (Nat.lt_asymm (World.lt_of_workOf? hOldK))
        · exact absurd hLt (Nat.lt_irrefl _)
    have hFailed : ∃ e, m.outcome? j = some (.error e) := by
      rcases hNews.tasks k _ hThen with hOldK | ⟨-, hVacant⟩
      · exact hInv.again j k path hLt ⟨_, _, hOld⟩ ⟨_, _, hOldK⟩
      · exact hVacant path source rfl j ⟨_, _, hOld⟩
    obtain ⟨e, hOutcome⟩ := hFailed
    exact ⟨e, hLater.outcome j _ hOutcome⟩

/-- Where nobody executes a path and nothing is cached there, all who have executed it have
    failed. -/
theorem failed_of_vacant {path : String} {j : TaskId} (hHolds : l.discipline.Holds m)
    (hVacant : m.store.executing.get? path = none) (hNone : m.store.cache.get? path = none)
    (hExecutes : m.Executes j path) : ∃ e, m.outcome? j = some (.error e) := by
  obtain ⟨loader, source, hWork⟩ := hExecutes
  obtain ⟨⟨work, p⟩, hTask, rfl⟩ := Option.map_eq_some_iff.mp hWork
  have hFits := hHolds.fits j _ hTask
  cases p with
  -- Under way it would hold the entry of the path.
  | ask o next =>
    have hHeld : m.store.executing.get? path = some j := LocalLive.holding hFits
    simp [hVacant] at hHeld
  | done r =>
    cases r with
    | error e => exact ⟨e, World.outcome?_eq_some_iff.mpr ⟨_, hTask⟩⟩
    -- With success it would have left a module in the cache.
    | ok x =>
      obtain ⟨-, hOk⟩ : m.store.executing.get? path ≠ some j ∧
          ∀ y, Except.ok x = .ok y → ∃ i, y = some ⟨path, i⟩ ∧ m.Cached path i := hFits
      obtain ⟨i, -, hCached⟩ := hOk x rfl
      exact absurd (hNone.symm.trans hCached) (by simp)

/-- An operation that the discipline allows keeps the invariant. -/
theorem LocalInv.act (hHolds : l.discipline.Holds m) (hMay : LocalMay l work t o m)
    (hAnswer : o.Answers h m.toWorld r w) : LocalInv l (m.act t o r w) := by
  have hInv : LocalInv l m := hHolds.inv
  have hLater := later_act hMay hAnswer
  cases hAnswer.effect with
  | quiet hSame =>
    refine hInv.grow hLater ⟨?_, ?_, ?_, ?_, ?_, ?_⟩ <;>
      simp +contextual [Moment.act, Moment.Cached, World.workOf?, hSame.tasks, hSame.aliases,
        hSame.resolved, hSame.cache, hSame.resolving, hSame.executing]
  | setAlias key path =>
    refine hInv.grow hLater { aliases := fun k p hGet => ?_ }
    rcases Table.get?_insert_cases hGet with ⟨rfl, rfl⟩ | hOld
    · exact Or.inr hMay
    · exact Or.inl hOld
  | setResolved basePath path =>
    refine hInv.grow hLater { resolved := fun b p hGet => ?_ }
    rcases Table.get?_insert_cases hGet with ⟨rfl, rfl⟩ | hOld
    · exact Or.inr hMay
    · exact Or.inl hOld
  | setCached path i =>
    refine hInv.grow hLater { cache := fun p j hGet => ?_ }
    rcases Table.get?_insert_cases hGet with ⟨rfl, rfl⟩ | hOld
    · exact Or.inr (hMay.2.2.later hLater)
    · exact Or.inl hOld
  -- A table from which an entry is gone has nothing new.
  | endResolve basePath =>
    exact hInv.grow hLater { resolving := fun _ _ hGet => Or.inl (Table.get?_of_erase hGet) }
  | endExecute path =>
    exact hInv.grow hLater { executing := fun _ _ hGet => Or.inl (Table.get?_of_erase hGet) }
  | clear => exact absurd hMay id
  | spawn new =>
    refine hInv.grow hLater { tasks := fun k work hWork => ?_ }
    rcases (World.starts_start new).workOf?_of_one hWork with hOld | ⟨rfl, rfl⟩
    · exact Or.inl hOld
    · exact Or.inr ⟨rfl, fun path source hJob =>
        absurd hJob (Job.ne_execute_of_isStage hMay.2 path source)⟩
  | startResolve loader basePath =>
    have hStarts := World.starts_start (w := m.toWorld) ⟨loader, .resolve basePath⟩
    refine hInv.grow hLater { resolving := fun b k hGet => ?_, tasks := fun k work hWork => ?_ }
    · rcases Table.get?_insert_cases hGet with ⟨rfl, rfl⟩ | hOld
      · exact Or.inr ⟨loader, hStarts.workOf?_new⟩
      · exact Or.inl hOld
    · rcases hStarts.workOf?_of_one hWork with hOld | ⟨rfl, rfl⟩
      · exact Or.inl hOld
      · exact Or.inr ⟨rfl, fun path source hJob => by cases hJob⟩
  | startExecute loader path source hVacant hNone =>
    have hStarts := World.starts_start (w := m.toWorld) ⟨loader, .execute path source⟩
    refine hInv.grow hLater { executing := fun p k hGet => ?_, tasks := fun k work hWork => ?_ }
    · rcases Table.get?_insert_cases hGet with ⟨rfl, rfl⟩ | hOld
      · exact Or.inr ⟨loader, source, hStarts.workOf?_new⟩
      · exact Or.inl hOld
    · rcases hStarts.workOf?_of_one hWork with hOld | ⟨rfl, rfl⟩
      · exact Or.inl hOld
      -- The place was vacant and nothing was cached, so whoever was here before has failed.
      · refine Or.inr ⟨rfl, fun p s hJob j hExecutes => ?_⟩
        obtain ⟨rfl, -⟩ := Job.execute.inj hJob
        exact failed_of_vacant hHolds hVacant hNone hExecutes

/-! ## Section 4: Every step keeps the discipline -/

theorem LocalPre.stable {m' : Moment} (hPre : LocalPre l work t m) (hRely : LocalRely t m m') :
    LocalPre l work t m' where
  serves := hPre.serves
  live := localLive_stable hRely hPre.live
  uncached path source hJob := by
    have hHeld : m.store.executing.get? path = some t := by
      have hHolding := hPre.live.holding
      simpa only [Moment.Holding, hJob] using hHolding
    exact hRely.uncached path hHeld (hPre.uncached path source hJob)

/-- Work that is not a stage finds nothing in particular. -/
theorem LocalPre.of_not_stage (hServes : l.Serves work.loader) (hWork : m.workOf? t = some work)
    (hStage : work.job.isStage = false) : LocalPre l work t m := by
  refine ⟨hServes, ⟨hWork, ?_⟩, fun path source hJob =>
    absurd hJob (Job.ne_execute_of_isStage hStage path source)⟩
  obtain ⟨loader, job⟩ := work
  cases job <;> simp only [Job.isStage, Bool.true_eq_false] at hStage <;> trivial

/-- Nobody notices that a task goes on. -/
theorem rely_goOn {k : TaskId} (p : Load Outcome) (hOpen : m.outcome? t = none) :
    LocalRely k m (m.goOn t p) :=
  .of_tables (Moment.later_goOn p hOpen) rfl rfl rfl

theorem LocalInv.goOn {p : Load Outcome} (hInv : LocalInv l m) (hOpen : m.outcome? t = none) :
    LocalInv l (m.goOn t p) := by
  refine hInv.grow (Moment.later_goOn p hOpen) { tasks := fun k work hWork => ?_ }
  exact Or.inl (by simpa [Moment.goOn] using hWork)

/-- A task that an operation starts finds what it has to. -/
theorem pre_act {k : TaskId} {new : Work} (hMay : LocalMay l work t o m)
    (hAnswer : o.Answers h m.toWorld r w) (hLe : m.tasks.length ≤ k)
    (hWork : (m.act t o r w).workOf? k = some new) : LocalPre l new k (m.act t o r w) := by
  have hOld : m.workOf? k ≠ some new := fun hOld =>
    absurd (World.lt_of_workOf? hOld) (Nat.not_lt.mpr hLe)
  cases hAnswer.effect with
  | quiet hSame =>
    exact absurd (by simpa [Moment.act, World.workOf?, hSame.tasks] using hWork) hOld
  | spawn new =>
    obtain ⟨rfl, rfl⟩ := (World.starts_start new).eq_of_le hLe hWork
    exact .of_not_stage hMay.1 hWork hMay.2
  | startResolve loader basePath =>
    have hStarts := World.starts_start (w := m.toWorld) ⟨loader, .resolve basePath⟩
    obtain ⟨rfl, rfl⟩ := hStarts.eq_of_le hLe hWork
    exact ⟨hMay, ⟨hWork, Table.get?_insert_self ..⟩, fun path source hJob => by cases hJob⟩
  | startExecute loader path source hVacant hNone =>
    have hStarts := World.starts_start (w := m.toWorld) ⟨loader, .execute path source⟩
    obtain ⟨rfl, rfl⟩ := hStarts.eq_of_le hLe hWork
    refine ⟨hMay, ⟨hWork, Table.get?_insert_self ..⟩, fun p s hJob => ?_⟩
    obtain ⟨rfl, -⟩ := Job.execute.inj hJob
    exact hNone
  | _ => exact absurd hWork hOld

/-- **Every operation that the discipline allows keeps it**, whoever carries it out. -/
theorem keeps_act {next : o.Reply → Load Outcome} (p : Load Outcome)
    (hHolds : l.discipline.Holds m) (hTask : m.tasks[t]? = some ⟨work, .ask o next⟩)
    (hMay : LocalMay l work t o m) (hAnswer : o.Answers h m.toWorld r w) :
    l.discipline.Keeps (some t) m ((m.act t o r w).goOn t p) := by
  obtain ⟨works, hStarts⟩ := hAnswer.starts
  have hOpen : (m.act t o r w).outcome? t = none :=
    World.outcome?_of_ask (hStarts.getElem?_of_task hTask)
  refine ⟨(LocalInv.act hHolds hMay hAnswer).goOn hOpen, fun k hLt hNe => ?_,
    fun k new hLe hWork => ?_⟩
  · have hNe : k ≠ t := fun hEq => hNe (congrArg some hEq)
    exact (rely_act hMay hAnswer hLt fun _ => hNe).trans (rely_goOn p hOpen)
  · have hWork : (m.act t o r w).workOf? k = some new := by simpa [Moment.goOn] using hWork
    exact (pre_act hMay hAnswer hLe hWork).stable (rely_goOn p hOpen)

/-- **Work that is asked for from outside keeps the discipline.** -/
theorem keeps_begin {new : Work} (hHolds : l.discipline.Holds m) (hAsks : l.Asks new) :
    l.discipline.Keeps none m (m.begin new) := by
  have hInv : LocalInv l m := hHolds.inv
  have hStarts := World.starts_start (w := m.toWorld) new
  have hLater : Moment.Later m (m.begin new) :=
    Moment.later_of_starts (fun _ => List.mem_cons_of_mem _) hStarts (fun _ _ hC => hC)
      fun _ hKey => hKey
  have hStage := Job.isStage_of_isAsked hAsks.1
  refine ⟨?_, fun k _ _ => .of_tables hLater rfl rfl rfl, fun k work hLe hWork => ?_⟩
  · refine hInv.grow hLater { tasks := fun k work hWork => ?_ }
    rcases hStarts.workOf?_of_one hWork with hOld | ⟨rfl, rfl⟩
    · exact Or.inl hOld
    · exact Or.inr ⟨rfl, fun path source hJob =>
        absurd hJob (Job.ne_execute_of_isStage hStage path source)⟩
  · obtain ⟨rfl, rfl⟩ := hStarts.eq_of_le hLe hWork
    exact .of_not_stage hAsks.2 hWork hStage

end Steps

end Bundleless
