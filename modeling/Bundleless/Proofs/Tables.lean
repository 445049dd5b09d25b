import Bundleless.Proofs.Conduct
import Bundleless.Proofs.SharedKeys

/-! # What the tables of local modules stand for

    The tables of local modules are kept up by three kinds of tasks, at
    different moments. All the same they say at every moment what the tasks
    are at and what they have come to: an entry of a stage belongs to the one
    task that is under way, a module is cached just when it was executed with
    success, and a failure leaves nothing behind. What a request does when
    nothing is under way can then be read off the tables.
-/

namespace Bundleless

/-! ## Section 1: What tasks leave behind -/

namespace Moment

variable (m : Moment)

/-- The task has come to such an outcome, or cannot come to any other. -/
def BoundFor (t : TaskId) (P : Outcome → Prop) : Prop :=
  ∀ task, m.tasks[t]? = some task → ∀ more r, task.program.Came more (.done r) → P r

/-- The task has executed the module at the path with success, and this is the module. -/
structure Succeeded (t : TaskId) (path : String) (i : Instance) : Prop where
  executes : m.Executes t path
  executed : m.Executed path i
  kept : .act t (.store (.setCached path i)) () ∈ m.past
  bound : m.BoundFor t (· = .ok (some ⟨path, i⟩))

/-- The task has loaded what is asked for under the key, and has remembered the path. -/
structure Remembered (t : TaskId) (key path : String) : Prop where
  request : ∃ work s d, m.workOf? t = some work ∧ work.localRequest? = some (s, d) ∧
    key = LocalPath.key s d
  remembers : .act t (.store (.setAlias key path)) () ∈ m.past
  bound : m.BoundFor t fun r => ∃ i, r = .ok (some ⟨path, i⟩)

/-- The task has written neither an alias nor a module, and has no entry of a stage. -/
structure LeavesNothing (t : TaskId) : Prop where
  unaliased : ∀ key path, .act t (.store (.setAlias key path)) () ∉ m.past
  uncached : ∀ path i, .act t (.store (.setCached path i)) () ∉ m.past
  resolving : ∀ basePath, m.store.resolving.get? basePath ≠ some t
  executing : ∀ path, m.store.executing.get? path ≠ some t

end Moment

/-- No stage of a local module is under way. -/
def World.NoStage (w : World) : Prop :=
  ∀ t work, w.workOf? t = some work → work.job.isStage = true → w.outcome? t ≠ none

/-- The URL of the first candidate that can be asked for. -/
def Loader.firstUrl? (l : Loader) (basePath : String) : Option Url :=
  (LocalPath.candidates l.extensions basePath).findSome? fun c =>
    (l.page.join ("/" ++ c)).toOption

/-- Who asks for the specifier starts from the beginning: a new task, for which the request waits,
    fetches the first of the candidates. -/
structure World.FetchesAfresh (h : Host) (w : World) (l : Loader)
    (specifier dir basePath : String) : Prop where
  starts : ((Load.findLocal l specifier dir).run.drive h w).2.tasks =
    w.tasks ++ [⟨⟨l, .resolve basePath⟩, Work.program ⟨l, .resolve basePath⟩⟩]
  waits : ∃ next, ((Load.findLocal l specifier dir).run.drive h w).1 =
    .ask (.await w.tasks.length) next
  fetches : ∀ u, l.firstUrl? basePath = some u → ∃ next,
    Work.program ⟨l, .resolve basePath⟩ = .ask (.send .get u.href) next

/-- **The tables say what the tasks are at and what they have come to.** -/
structure Moment.TablesFit (h : Host) (l : Loader) (m : Moment) : Prop where
  /-- The entry of a base path belongs to the task that finds out what it means, as long as that
      task is under way, and to no other. -/
  resolving : ∀ basePath t, m.store.resolving.get? basePath = some t ↔
    m.Resolves t basePath ∧ m.outcome? t = none
  /-- The entry of a path belongs to the task that executes it, in the same way. -/
  executing : ∀ path t, m.store.executing.get? path = some t ↔
    m.Executes t path ∧ m.outcome? t = none
  pending : m.NoStage → m.store.resolving = [] ∧ m.store.executing = []
  /-- A module is cached just when a task has executed it with success. -/
  cached : ∀ path i, m.Cached path i ↔ ∃ t, m.Succeeded t path i
  succeeded : ∀ t path x, m.Executes t path → m.outcome? t = some (.ok x) →
    ∃ i, x = some ⟨path, i⟩ ∧ m.Succeeded t path i
  /-- An alias leads to a module that is cached, and a request that has loaded it wrote it. -/
  aliases : ∀ key path, m.store.aliases.get? key = some path →
    ∃ i t, m.Cached path i ∧ m.Remembered t key path
  resolved : ∀ basePath path, m.store.resolved.get? basePath = some path →
    path ∈ LocalPath.candidates l.extensions basePath
  /-- Whoever has failed has left nothing. -/
  failed : ∀ t e, m.outcome? t = some (.error e) → m.LeavesNothing t
  /-- When no stage is under way, a request starts from the beginning just when it has no alias and
      what was found for its base path, if anything was, is not cached. -/
  again : m.NoStage → ∀ l' specifier dir basePath, l.Serves l' →
    LocalPath.resolve specifier dir l.page = .ok basePath →
    (m.FetchesAfresh h l' specifier dir basePath ↔
      m.store.aliases.get? (LocalPath.key specifier dir) = none ∧
        ∀ path, m.store.resolved.get? basePath = some path → m.store.cache.get? path = none)
  /-- So it does where its key determines what is meant, and nothing of that is cached. -/
  anew : m.NoStage → ∀ l' specifier dir basePath, l.Serves l' →
    LocalPath.resolve specifier dir l.page = .ok basePath → l.Determines specifier dir →
    (∀ path ∈ LocalPath.candidates l.extensions basePath, m.store.cache.get? path = none) →
    m.FetchesAfresh h l' specifier dir basePath

/-! ## Section 2: What has written the tables -/

/-- A table all of whose names have no value is empty. -/
theorem Table.eq_nil_of_get? {α : Type} {t : Table α} (hNone : ∀ key, t.get? key = none) :
    t = [] := by
  cases t with
  | nil => rfl
  | cons e t =>
    have hHead := hNone e.1
    simp [get?] at hHead

/-- What the tables that last have was written by steps that were made. -/
structure Store.Written (s : Store) (past : List Label) : Prop where
  aliases : ∀ key path, s.aliases.get? key = some path →
    ∃ t, .act t (.store (.setAlias key path)) () ∈ past
  resolved : ∀ basePath path, s.resolved.get? basePath = some path →
    ∃ t, .act t (.store (.setResolved basePath path)) () ∈ past
  cache : ∀ path i, s.cache.get? path = some i →
    ∃ t, .act t (.store (.setCached path i)) () ∈ past

namespace Store.Written

variable {h : Host} {w w' : World} {past : List Label}

theorem keep {s s' : Store} {step : Label} (hWritten : s.Written past)
    (hAliases : s'.aliases = s.aliases) (hResolved : s'.resolved = s.resolved)
    (hCache : s'.cache = s.cache) : s'.Written (step :: past) where
  aliases key path hGet := by
    rw [hAliases] at hGet
    obtain ⟨t, hAct⟩ := hWritten.aliases key path hGet
    exact ⟨t, List.mem_cons_of_mem _ hAct⟩
  resolved basePath path hGet := by
    rw [hResolved] at hGet
    obtain ⟨t, hAct⟩ := hWritten.resolved basePath path hGet
    exact ⟨t, List.mem_cons_of_mem _ hAct⟩
  cache path i hGet := by
    rw [hCache] at hGet
    obtain ⟨t, hAct⟩ := hWritten.cache path i hGet
    exact ⟨t, List.mem_cons_of_mem _ hAct⟩

theorem act {t : TaskId} {o : Op} {r : o.Reply} (hWritten : w.store.Written past)
    (hAnswer : o.Answers h w r w') : w'.store.Written (.act t o r :: past) := by
  have hOld : w.store.Written (.act t o r :: past) := hWritten.keep rfl rfl rfl
  cases hAnswer.effect with
  | quiet hSame => exact hWritten.keep hSame.aliases hSame.resolved hSame.cache
  | setAlias key path =>
    refine ⟨fun k p hGet => ?_, hOld.resolved, hOld.cache⟩
    rcases Table.get?_insert_cases hGet with ⟨rfl, rfl⟩ | hGet
    · exact ⟨t, List.mem_cons_self⟩
    · exact hOld.aliases k p hGet
  | setResolved basePath path =>
    refine ⟨hOld.aliases, fun b p hGet => ?_, hOld.cache⟩
    rcases Table.get?_insert_cases hGet with ⟨rfl, rfl⟩ | hGet
    · exact ⟨t, List.mem_cons_self⟩
    · exact hOld.resolved b p hGet
  | setCached path i =>
    refine ⟨hOld.aliases, hOld.resolved, fun p j hGet => ?_⟩
    rcases Table.get?_insert_cases hGet with ⟨rfl, rfl⟩ | hGet
    · exact ⟨t, List.mem_cons_self⟩
    · exact hOld.cache p j hGet
  | clear =>
    exact ⟨fun _ _ hGet => (nomatch hGet), fun _ _ hGet => (nomatch hGet),
      fun _ _ hGet => (nomatch hGet)⟩
  | _ => exact hWritten.keep rfl rfl rfl

end Store.Written

namespace World

variable {h : Host} {l : Loader} {asks : Work → Prop} {w₀ w w' : World} {past : List Label}

theorem Run.written (hRun : Run h asks w₀ past w) (hFresh : w₀.Fresh) :
    w.store.Written past := by
  induction hRun with
  | refl => exact ⟨fun key path hGet => by simp [hFresh.aliases] at hGet,
      fun basePath path hGet => by simp [hFresh.resolved] at hGet,
      fun path i hGet => by simp [hFresh.cache] at hGet⟩
  | tail _ hStep ih =>
    cases hStep with
    | act _ hAnswer =>
      rw [store_setProgram]
      exact ih.act hAnswer
    | start => exact ih.keep rfl rfl rfl

/-- A tool that was under way at the start has carried out free operations only. -/
theorem Run.isFree_of_lt (hRun : Run h asks w₀ past w) (hFresh : w₀.Fresh) {t : TaskId}
    (hOld : t < w₀.tasks.length) {o : Op} {r : o.Reply} (hAct : .act t o r ∈ past) :
    o.isFree = true :=
  hRun.only_of_lt (fun task hTask => (hFresh.tools t task hTask).2.only) hOld hAct

/-- What is kept is kept by work that was begun in the run. -/
theorem Run.le_of_keeping (hRun : Run h asks w₀ past w) (hFresh : w₀.Fresh) {t : TaskId} {o : Op}
    {r : o.Reply} (hAct : .act t o r ∈ past) (hKeeping : o.isKeeping = true) :
    w₀.tasks.length ≤ t := by
  refine Nat.not_lt.mp fun hOld => ?_
  have hQuiet := Op.isQuiet_of_isFree (hRun.isFree_of_lt hFresh hOld hAct)
  unfold Op.isKeeping at hKeeping
  split at hKeeping <;> simp [Op.isQuiet] at hQuiet hKeeping

/-- Who has kept something is bound to come to it. -/
theorem Run.boundFor (hRun : Run h asks w₀ past w) {t : TaskId} (hNew : w₀.tasks.length ≤ t)
    {P : Outcome → Prop} (hEnds : ∀ (work : Work) hist r, historyOf t past ⊆ hist → work.Ends hist r → P r) :
    Moment.BoundFor ⟨w, past⟩ t P := by
  rintro ⟨work, p⟩ hTask more r hCame
  have hObeys : p.Obeys work.Allows work.Ends (historyOf t past) := hRun.obeys hTask hNew
  exact hEnds work _ r (List.subset_append_right _ _) (hObeys.came hCame).of_done

end World

/-! ## Section 3: A request while nothing is under way -/

namespace Load

variable {h : Host} {w : World} {l : Loader} {specifier dir basePath : String}

theorem drive_ask {α : Type} {o : Op} {r : o.Reply} {w' : World} (next : o.Reply → Load α)
    (hPerform : o.perform h w = some (r, w')) :
    (Load.ask o next).drive h w = (next r).drive h w' := by
  rw [drive, hPerform]

theorem drive_store {α : Type} (o : StoreOp) (next : o.Reply → Load α) :
    (Load.ask (.store o) next).drive h w =
      (next (o.apply w.store).1).drive h (w.withStore (o.apply w.store).2) := by
  have hPerform : (Op.store o).perform h w =
      some ((o.apply w.store).1, w.withStore (o.apply w.store).2) := rfl
  rw [drive_ask next hPerform]

/-- Where the first program need not wait, the second one goes on. -/
theorem drive_lift_bind {α β : Type} {p : Load α} {f : α → Attempt β} {a : α} {w' : World}
    (hFirst : p.drive h w = (.done a, w')) :
    ((liftM p : Attempt α) >>= f).run.drive h w = (f a).run.drive h w' := by
  induction p generalizing w with
  | done b =>
    obtain ⟨hIs, rfl⟩ := Prod.mk.inj hFirst
    obtain rfl := Load.done.inj hIs
    rfl
  | ask o next ih =>
    have hRun : ((liftM (Load.ask o next) : Attempt α) >>= f).run =
        .ask o fun r => ((liftM (next r) : Attempt α) >>= f).run := rfl
    cases hPerform : o.perform h w with
    | none =>
      rw [drive, hPerform] at hFirst
      cases hFirst
    | some answer =>
      obtain ⟨r, w₁⟩ := answer
      rw [drive_ask next hPerform] at hFirst
      rw [hRun, drive_ask _ hPerform]
      exact ih r hFirst

/-- What is remembered is read off the cache. -/
theorem drive_remembered (path : Option String) : (remembered path).drive h w =
    (.done (path.bind fun p => (w.store.cache.get? p).map fun i => (p, i)), w) := by
  cases path with
  | none => rfl
  | some path =>
    have hRun : remembered (some path) = .ask (.store (.cached path)) fun found =>
      match found with
      | some i => pure (some (path, i))
      | none => pure none := rfl
    rw [hRun, drive_store]
    simp only [StoreOp.apply, Option.bind_some]
    cases w.store.cache.get? path <;> rfl

/-- The first candidate that can be asked for is fetched first. -/
theorem fetchFirst_eq_ask (basePath : String) (all : List String) {rest : List String} {u : Url}
    (hFirst : (rest.findSome? fun c => (l.page.join ("/" ++ c)).toOption) = some u) :
    ∃ next, (fetchFirst l basePath all rest).run = .ask (.send .get u.href) next := by
  induction rest with
  | nil => simp at hFirst
  | cons c rest ih =>
    unfold fetchFirst
    rw [List.findSome?_cons] at hFirst
    cases hJoin : l.page.join ("/" ++ c) with
    | error e =>
      rw [hJoin] at hFirst
      exact ih hFirst
    | ok v =>
      rw [hJoin] at hFirst
      obtain rfl : v = u := Option.some.inj hFirst
      exact ⟨_, rfl⟩

theorem program_resolve (l : Loader) (basePath : String) : Work.program ⟨l, .resolve basePath⟩ =
    ((findAndExecute l basePath).run >>= fun r => store (.endResolve basePath) >>= fun _ =>
      pure (r.map some)) := by
  show ((findAndExecute l basePath).run >>= fun r => store (.endResolve basePath) >>= fun _ =>
    pure r) >>= (fun r => pure (r.map some)) = _
  rw [bind_assoc]
  rfl

/-- A first stage that is started is not done. -/
theorem exists_program_resolve_eq_ask (l : Loader) (basePath : String) :
    ∃ o next, Work.program ⟨l, .resolve basePath⟩ = .ask o next := by
  rw [program_resolve]
  cases (findAndExecute l basePath).run with
  | done r => exact ⟨_, _, rfl⟩
  | ask o next => exact ⟨_, _, rfl⟩

/-- The first stage begins with a fetch. -/
theorem program_resolve_eq_ask {u : Url} (hFirst : l.firstUrl? basePath = some u) :
    ∃ next, Work.program ⟨l, .resolve basePath⟩ = .ask (.send .get u.href) next := by
  obtain ⟨next, hFetch⟩ := fetchFirst_eq_ask basePath (LocalPath.candidates l.extensions basePath)
    hFirst
  have hFind : ∃ next, (findAndExecute l basePath).run = .ask (.send .get u.href) next := by
    unfold findAndExecute fetchSource
    rw [ExceptT.run_bind, hFetch]
    exact ⟨_, rfl⟩
  obtain ⟨next, hFind⟩ := hFind
  rw [program_resolve, hFind]
  exact ⟨_, rfl⟩

/-- Who joins a first stage that is not there starts it, and waits for it. -/
theorem drive_joinResolve {α : Type} (f : Loaded → Attempt α)
    (hVacant : w.store.resolving.get? basePath = none) :
    ∃ next w', (joinResolve l basePath >>= f).run.drive h w = (.ask (.await w.tasks.length) next, w') ∧
      w'.tasks = w.tasks ++ [⟨⟨l, .resolve basePath⟩, Work.program ⟨l, .resolve basePath⟩⟩] := by
  let w' : World := (w.start ⟨l, .resolve basePath⟩).2.withStore
    { w.store with resolving := w.store.resolving.insert basePath w.tasks.length }
  have hShare : (Op.shareResolve l basePath).perform h w = some (w.tasks.length, w') := by
    simp only [Op.perform, hVacant]
    rfl
  -- The new stage is not done, and so whoever waits for it waits.
  have hOpen : w'.outcome? w.tasks.length = none := by
    obtain ⟨o, next, hProgram⟩ := exists_program_resolve_eq_ask l basePath
    have hTask : w'.tasks[w.tasks.length]? = some ⟨⟨l, .resolve basePath⟩, .ask o next⟩ := by
      simp [w', World.withStore, World.start, hProgram]
    exact World.outcome?_of_ask hTask
  have hAwait : (Op.await w.tasks.length).perform h w' = none := by
    simp only [Op.perform, World.loaded?, hOpen]
    rfl
  refine ⟨fun r => ((ExceptT.mk (pure r) : Attempt Loaded) >>= f).run, w', ?_, rfl⟩
  have hRun : (joinResolve l basePath >>= f).run = .ask (.shareResolve l basePath) fun t =>
      .ask (.await t) fun r => ((ExceptT.mk (pure r) : Attempt Loaded) >>= f).run := rfl
  rw [hRun, drive_ask _ hShare, drive, hAwait]

/-- Without an alias the search goes on from what was found for the base path. -/
theorem drive_findLocal_unaliased
    (hAlias : w.store.aliases.get? (LocalPath.key specifier dir) = none)
    (hResolve : LocalPath.resolve specifier dir l.page = .ok basePath) :
    (findLocal l specifier dir).run.drive h w =
      (((w.store.resolved.get? basePath).bind
          fun p => (w.store.cache.get? p).map fun i => (p, i)).elim
        (joinResolve l basePath >>= land (LocalPath.key specifier dir) specifier)
        fun x => land (LocalPath.key specifier dir) specifier ⟨x.1, x.2⟩).run.drive h w := by
  have hPathOf : (store (.pathOf (LocalPath.key specifier dir))).drive h w = (.done none, w) := by
    rw [← hAlias]
    rfl
  have hResolved : (store (.resolved basePath)).drive h w =
      (.done (w.store.resolved.get? basePath), w) := rfl
  unfold findLocal
  rw [drive_lift_bind hPathOf, drive_lift_bind (drive_remembered _)]
  simp only [Option.bind_none, hResolve]
  refine (drive_lift_bind hResolved).trans ((drive_lift_bind (drive_remembered _)).trans ?_)
  cases (w.store.resolved.get? basePath).bind
    fun p => (w.store.cache.get? p).map fun i => (p, i) <;> rfl

/-- **What a request does while nothing is under way**: it starts from the beginning just when
    nothing that it may take is cached. -/
theorem fetchesAfresh_iff (hResolve : LocalPath.resolve specifier dir l.page = .ok basePath)
    (hVacant : w.store.resolving.get? basePath = none)
    (hAliases : ∀ path, w.store.aliases.get? (LocalPath.key specifier dir) = some path →
      ∃ i, w.store.cache.get? path = some i) :
    w.FetchesAfresh h l specifier dir basePath ↔
      w.store.aliases.get? (LocalPath.key specifier dir) = none ∧
        ∀ path, w.store.resolved.get? basePath = some path → w.store.cache.get? path = none := by
  -- Whoever takes what is there starts no task.
  have hTakes : ((findLocal l specifier dir).run.drive h w).2.tasks = w.tasks →
      ¬ w.FetchesAfresh h l specifier dir basePath := by
    intro hSame hAfresh
    have hLength := congrArg List.length (hSame.symm.trans hAfresh.starts)
    simp at hLength
  have hPathOf : (store (.pathOf (LocalPath.key specifier dir))).drive h w =
      (.done (w.store.aliases.get? (LocalPath.key specifier dir)), w) := rfl
  cases hAlias : w.store.aliases.get? (LocalPath.key specifier dir) with
  | some path =>
    obtain ⟨i, hCached⟩ := hAliases path hAlias
    refine iff_of_false (hTakes ?_) (by simp)
    unfold findLocal
    rw [drive_lift_bind hPathOf, hAlias, drive_lift_bind (drive_remembered _)]
    simp only [Option.bind_some, hCached, Option.map_some]
    rfl
  | none =>
    -- Without an alias it depends on what was found for the base path.
    cases hHit : (w.store.resolved.get? basePath).bind
        fun p => (w.store.cache.get? p).map fun i => (p, i) with
    | some hit =>
      obtain ⟨path, hFound, hCached⟩ := Option.bind_eq_some_iff.mp hHit
      obtain ⟨i, hCached, -⟩ := Option.map_eq_some_iff.mp hCached
      refine iff_of_false (hTakes ?_) fun hNone => ?_
      · rw [drive_findLocal_unaliased hAlias hResolve, hHit]
        rfl
      · have hNot := hNone.2 path hFound
        simp [hCached] at hNot
    | none =>
      refine iff_of_true ?_ ⟨rfl, fun path hFound => ?_⟩
      · obtain ⟨next, w', hJoin, hTasks⟩ := drive_joinResolve (h := h) (l := l)
          (land (LocalPath.key specifier dir) specifier) hVacant
        have hWaits := drive_findLocal_unaliased (h := h) hAlias hResolve
        rw [hHit] at hWaits
        have hWaits := hWaits.trans hJoin
        exact ⟨by rw [hWaits, hTasks], ⟨next, by rw [hWaits]⟩,
          fun u hFirst => program_resolve_eq_ask hFirst⟩
      · rw [hFound] at hHit
        simpa using hHit

end Load

/-! ## Section 4: Every run -/

section Runs

variable {h : Host} {l : Loader} {w₀ w : World} {past : List Label} {m : Moment} {t : TaskId}
  {path basePath : String}

/-- An entry of the first stage belongs to a task that is under way. -/
theorem Discipline.Holds.resolving_iff (hHolds : l.discipline.Holds m) :
    m.store.resolving.get? basePath = some t ↔ m.Resolves t basePath ∧ m.outcome? t = none := by
  have hInv : LocalInv l m := hHolds.inv
  constructor
  · intro hEntry
    have hResolves := hInv.resolving basePath t hEntry
    refine ⟨hResolves, ?_⟩
    obtain ⟨loader, hWork⟩ := hResolves
    -- A task that is done has given its entry up.
    cases hOutcome : m.outcome? t with
    | none => rfl
    | some r =>
      obtain ⟨hNot, -⟩ : m.store.resolving.get? basePath ≠ some t ∧ _ := hHolds.post hWork hOutcome
      exact absurd hEntry hNot
  · rintro ⟨⟨loader, hWork⟩, hOpen⟩
    obtain ⟨⟨work, p⟩, hTask, rfl⟩ := Option.map_eq_some_iff.mp hWork
    cases p with
    | done r => simp [World.outcome?, hTask, Task.outcome?] at hOpen
    | ask o next =>
      have hLive : LocalLive ⟨loader, .resolve basePath⟩ t m := hHolds.fits t _ hTask
      exact hLive.holding

theorem Discipline.Holds.executing_iff (hHolds : l.discipline.Holds m) :
    m.store.executing.get? path = some t ↔ m.Executes t path ∧ m.outcome? t = none := by
  have hInv : LocalInv l m := hHolds.inv
  constructor
  · intro hEntry
    have hExecutes := hInv.executing path t hEntry
    refine ⟨hExecutes, ?_⟩
    obtain ⟨loader, source, hWork⟩ := hExecutes
    cases hOutcome : m.outcome? t with
    | none => rfl
    | some r =>
      obtain ⟨hNot, -⟩ : m.store.executing.get? path ≠ some t ∧ _ := hHolds.post hWork hOutcome
      exact absurd hEntry hNot
  · rintro ⟨⟨loader, source, hWork⟩, hOpen⟩
    obtain ⟨⟨work, p⟩, hTask, rfl⟩ := Option.map_eq_some_iff.mp hWork
    cases p with
    | done r => simp [World.outcome?, hTask, Task.outcome?] at hOpen
    | ask o next =>
      have hLive : LocalLive ⟨loader, .execute path source⟩ t m := hHolds.fits t _ hTask
      exact hLive.holding

/-- Where no stage is under way both tables of stages are empty. -/
theorem Discipline.Holds.pending (hHolds : l.discipline.Holds m) (hIdle : m.NoStage) :
    m.store.resolving = [] ∧ m.store.executing = [] := by
  constructor
  · refine Table.eq_nil_of_get? fun basePath => Option.eq_none_iff_forall_ne_some.mpr fun t hEntry => ?_
    obtain ⟨⟨loader, hWork⟩, hOpen⟩ := hHolds.resolving_iff.mp hEntry
    exact hIdle t _ hWork rfl hOpen
  · refine Table.eq_nil_of_get? fun path => Option.eq_none_iff_forall_ne_some.mpr fun t hEntry => ?_
    obtain ⟨⟨loader, source, hWork⟩, hOpen⟩ := hHolds.executing_iff.mp hEntry
    exact hIdle t _ hWork rfl hOpen

namespace World

/-- What was put into the cache is there. -/
theorem Run.cached_of_kept (hRun : Run h l.Asks w₀ past w) (hFresh : w₀.Fresh) {i : Instance}
    (hKept : .act t (.store (.setCached path i)) () ∈ past) :
    w.store.cache.get? path = some i := by
  induction hRun with
  | refl => cases hKept
  | @tail past w w' step hRun hStep ih =>
    rcases List.mem_cons.mp hKept with rfl | hOld
    · cases hStep with
      | act _ hAnswer =>
        obtain ⟨-, rfl⟩ := hAnswer.store
        exact Table.get?_insert_self ..
    · have hLater := Step.later (m := ⟨w, past⟩) hStep (hRun.adequate hFresh)
      exact hLater.cached path i (ih hOld)

/-- Whoever has put a module into the cache has executed it with success. -/
theorem Run.succeeded_of_kept (hRun : Run h l.Asks w₀ past w) (hFresh : w₀.Fresh) {i : Instance}
    (hKept : .act t (.store (.setCached path i)) () ∈ past) :
    Moment.Succeeded ⟨w, past⟩ t path i := by
  have hNew := hRun.le_of_keeping hFresh hKept rfl
  obtain ⟨⟨loader, job⟩, hWork⟩ := hRun.exists_work hKept
  obtain ⟨_, -, source, hJob⟩ := hRun.allowed hWork hNew hKept
  obtain rfl : job = .execute path source := hJob
  have hInv : LocalInv l ⟨w, past⟩ := (hRun.adequate hFresh).holds.inv
  refine ⟨⟨loader, source, hWork⟩, hInv.cache path i (hRun.cached_of_kept hFresh hKept), hKept, ?_⟩
  refine hRun.boundFor hNew fun work hist r hSub hEnds => ?_
  exact hEnds.caches path i (hSub (mem_historyOf.mpr hKept))

/-- Whoever has remembered a path has loaded what was asked for. -/
theorem Run.remembered_of_kept (hRun : Run h l.Asks w₀ past w) (hFresh : w₀.Fresh) {key : String}
    (hKept : .act t (.store (.setAlias key path)) () ∈ past) :
    Moment.Remembered ⟨w, past⟩ t key path := by
  have hNew := hRun.le_of_keeping hFresh hKept rfl
  obtain ⟨work, hWork⟩ := hRun.exists_work hKept
  obtain ⟨_, -, s, d, hRequest, hKey⟩ := hRun.allowed hWork hNew hKept
  refine ⟨⟨work, s, d, hWork, hRequest, hKey⟩, hKept, ?_⟩
  refine hRun.boundFor hNew fun work hist r hSub hEnds => ?_
  exact hEnds.remembers key path (hSub (mem_historyOf.mpr hKept))

/-- Whoever fails has kept nothing, and has given up what it had. -/
theorem Run.leavesNothing (hRun : Run h l.Asks w₀ past w) (hFresh : w₀.Fresh) {e : Failure}
    (hFailed : w.outcome? t = some (.error e)) : Moment.LeavesNothing ⟨w, past⟩ t := by
  have hHolds := (hRun.adequate hFresh).holds
  obtain ⟨work, hTask⟩ := outcome?_eq_some_iff.mp hFailed
  have hWork : w.workOf? t = some work := workOf?_of_task hTask
  refine ⟨fun key path hKept => ?_, fun path i hKept => ?_, fun basePath hEntry => ?_,
    fun path hEntry => ?_⟩
  · have hEnds := hRun.ends hWork (hRun.le_of_keeping hFresh hKept rfl) hFailed
    obtain ⟨i, hOk⟩ := hEnds.remembers key path (mem_historyOf.mpr hKept)
    cases hOk
  · have hEnds := hRun.ends hWork (hRun.le_of_keeping hFresh hKept rfl) hFailed
    cases hEnds.caches path i (mem_historyOf.mpr hKept)
  · have hOpen : w.outcome? t = none := (hHolds.resolving_iff.mp hEntry).2
    rw [hFailed] at hOpen
    cases hOpen
  · have hOpen : w.outcome? t = none := (hHolds.executing_iff.mp hEntry).2
    rw [hFailed] at hOpen
    cases hOpen

/-- A task of the second stage that is done without a failure has succeeded. -/
theorem Run.succeeded_of_outcome (hRun : Run h l.Asks w₀ past w) (hFresh : w₀.Fresh)
    {x : Option Loaded} (hExecutes : w.Executes t path) (hOk : w.outcome? t = some (.ok x)) :
    ∃ i, x = some ⟨path, i⟩ ∧ Moment.Succeeded ⟨w, past⟩ t path i := by
  obtain ⟨loader, source, hWork⟩ := hExecutes
  have hNew := hRun.le_of_work hFresh hWork fun d hTool => by cases hTool
  obtain ⟨i, rfl, hKept⟩ := (hRun.ends hWork hNew hOk).executes path source x rfl rfl
  exact ⟨i, rfl, hRun.succeeded_of_kept hFresh (mem_historyOf.mp hKept)⟩

/-- **At every moment of every run the tables say what the tasks are at and what they have come
    to**, whatever loads succeed, fail or are given up. -/
theorem Run.tables_fit (hRun : Run h l.Asks w₀ past w) (hFresh : w₀.Fresh) :
    Moment.TablesFit h l ⟨w, past⟩ := by
  have hHolds := (hRun.adequate hFresh).holds
  have hInv : LocalInv l ⟨w, past⟩ := hHolds.inv
  have hWritten := hRun.written hFresh
  have hAgain : w.NoStage → ∀ l' specifier dir basePath, l.Serves l' →
      LocalPath.resolve specifier dir l.page = .ok basePath →
      (w.FetchesAfresh h l' specifier dir basePath ↔
        w.store.aliases.get? (LocalPath.key specifier dir) = none ∧
          ∀ path, w.store.resolved.get? basePath = some path → w.store.cache.get? path = none) := by
    intro hIdle l' specifier dir basePath hServes hResolve
    have hNone : w.store.resolving = [] := (hHolds.pending hIdle).1
    refine Load.fetchesAfresh_iff ?_ ?_ fun path hAlias => (hInv.aliases _ path hAlias).1
    · rw [hServes.1, hResolve]
    · rw [hNone]
      rfl
  exact {
    resolving := fun basePath t => hHolds.resolving_iff
    executing := fun path t => hHolds.executing_iff
    pending := hHolds.pending
    cached := fun path i => by
      constructor
      · intro hCached
        obtain ⟨t, hKept⟩ := hWritten.cache path i hCached
        exact ⟨t, hRun.succeeded_of_kept hFresh hKept⟩
      · rintro ⟨t, hSucceeded⟩
        exact hRun.cached_of_kept hFresh hSucceeded.kept
    succeeded := fun t path x => hRun.succeeded_of_outcome hFresh
    aliases := fun key path hAlias => by
      obtain ⟨⟨i, hCached⟩, -⟩ := hInv.aliases key path hAlias
      obtain ⟨t, hKept⟩ := hWritten.aliases key path hAlias
      exact ⟨i, t, hCached, hRun.remembered_of_kept hFresh hKept⟩
    resolved := fun basePath path hGet => (hInv.resolved basePath path hGet).1
    failed := fun t e => hRun.leavesNothing hFresh
    again := hAgain
    anew := by
      intro hIdle l' specifier dir basePath hServes hResolve hDetermines hUncached
      refine (hAgain hIdle l' specifier dir basePath hServes hResolve).mpr ⟨?_, fun path hFound =>
        hUncached path (hInv.resolved basePath path hFound).1⟩
      -- An alias would lead to a candidate that is cached.
      refine Option.eq_none_iff_forall_ne_some.mpr fun path hAlias => ?_
      obtain ⟨⟨i, hCached⟩, specifier', dir', hKey, hMeans⟩ := hInv.aliases _ path hAlias
      obtain ⟨b, hSame, hCandidate⟩ := hDetermines specifier' dir' path hKey.symm hMeans
      obtain rfl : basePath = b := Except.ok.inj (hResolve.symm.trans hSame)
      have hNone : w.store.cache.get? path = none := hUncached path hCandidate
      cases hNone.symm.trans hCached }

/-- A request that has failed, and the tables after it. -/
theorem Run.tables_fit_after_failure : ∃ past w,
    Run (Site.host {}) Replay.loader.Asks {} past w ∧ Fresh {} ∧
    w.failureOf? 0 = some (.execute "src/a" "boom") ∧
    Moment.TablesFit (Site.host {}) Replay.loader ⟨w, past⟩ := by
  obtain ⟨past, w, hRun, hFailed⟩ := World.exists_run (Site.host {}) Replay.loader {}
    [.ask (.load "./a" "src"), .go 0 3, .go 1 1, .reply 1 (Replay.found "//throw boom"), .go 1 2,
      .go 2 3, .go 1 2, .go 0 1]
    (fun x => x.2.failureOf? 0 = some (.execute "src/a" "boom")) (by decide +kernel)
  exact ⟨past, w, hRun, fresh_empty, of_decide_eq_true hFailed, hRun.tables_fit fresh_empty⟩

/-- A request that has failed starts from the beginning when it is made again, if no stage is under
    way and nothing that it may mean is cached. -/
def RetriesAfresh (h : Host) (l : Loader) (w : World) : Prop :=
  w.NoStage → ∀ t work specifier dir e basePath, w.workOf? t = some work →
    work.localRequest? = some (specifier, dir) → w.outcome? t = some (.error e) →
    LocalPath.resolve specifier dir l.page = .ok basePath →
    (∀ path ∈ LocalPath.candidates l.extensions basePath, w.store.cache.get? path = none) →
    w.FetchesAfresh h work.loader specifier dir basePath

/-- On a page in a directory of its own the module that `./theme` means from `/src` fails, and the
    one that it means from `src` is loaded. Whoever asks from `/src` again is given the latter, and
    nothing is fetched. -/
theorem not_retriesAfresh : ¬ ∀ past w,
    Run (Site.host {}) (Replay.loaderAt ["app", "index.html"]).Asks {} past w →
      w.RetriesAfresh (Site.host {}) (Replay.loaderAt ["app", "index.html"]) := by
  let l := Replay.loaderAt ["app", "index.html"]
  obtain ⟨past, w, hRun, hFound⟩ := World.exists_run (Site.host {}) l {}
    [.ask (.load "./theme" "/src"), .go 0 3, .go 1 1, .reply 1 (Replay.found "//throw boom"),
      .go 1 2, .go 2 3, .go 1 2, .go 0 1, .ask (.load "./theme" "src"), .go 3 3, .go 4 1,
      .reply 4 (Replay.found ""), .go 4 2, .go 5 6, .go 4 2, .go 3 3]
    (fun x => x.2.workOf? 0 = some ⟨l, .load "./theme" "/src"⟩ ∧
      x.2.failureOf? 0 = some (.execute "src/theme" "boom") ∧
      (∀ t < x.2.tasks.length, (x.2.outcome? t).isSome = true) ∧
      (∀ path ∈ LocalPath.candidates l.extensions "src/theme",
        x.2.store.cache.get? path = none) ∧
      ((Load.findLocal l "./theme" "/src").run.drive (Site.host {}) x.2).2.tasks.length =
        x.2.tasks.length) (by decide +kernel)
  obtain ⟨hWork, hFailed, hDone, hUncached, hSame⟩ := of_decide_eq_true hFound
  have hIdle : w.NoStage := by
    intro t work hAt _ hOpen
    have hSome := hDone t (lt_of_workOf? hAt)
    simp [hOpen] at hSome
  have hResolve : LocalPath.resolve "./theme" "/src" l.page = .ok "src/theme" :=
    eq_ok_of_toOption (by decide +kernel)
  intro hAll
  have hAfresh := hAll past w hRun hIdle 0 _ "./theme" "/src" _ "src/theme" hWork rfl
    (failureOf?_eq_some_iff.mp hFailed) hResolve hUncached
  -- Afresh it would start a task.
  have hLength := congrArg List.length hAfresh.starts
  have hSame : ((Load.findLocal l "./theme" "/src").run.drive (Site.host {}) w).2.tasks.length =
      w.tasks.length := hSame
  rw [hSame, List.length_append, List.length_singleton] at hLength
  omega

end World

end Runs

end Bundleless
