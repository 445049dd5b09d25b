import Bundleless.Proofs.Names
import Bundleless.Proofs.OwnDependencies
import Bundleless.Proofs.Tables

/-! # Requests for local modules

    How a request for a local module goes, told from its own history alone. It
    asks for the alias first of all. Without one it goes by the base path: it
    takes what was found for it, or joins the first stage; and from there on
    it only waits, remembers the path and registers the module. Section 3
    reads off, in every run, where the paths come from that are remembered:
    each was found by a task of the first stage for the same base path.
-/

namespace Bundleless

/-! ## Section 1: The rule -/

/-- The operation is one of the last of a request for a local module: to wait for the stage that was
    joined, to remember the path, and to register the module under the specifier. -/
def Op.Lands (specifier dir : String) : Op → Prop
  | .await _ => True
  | .store (.setAlias key _) => key = LocalPath.key specifier dir
  | .store (.register name _) => name = specifier
  | _ => False

namespace History

variable (hist : History)

/-- A path is known for a base path: it was found before, or the stage that was joined has come to
    it. -/
def Reached (basePath path : String) : Prop :=
  ⟨.store (.resolved basePath), some path⟩ ∈ hist ∨
    ∃ l t x, ⟨.shareResolve l basePath, t⟩ ∈ hist ∧ ⟨.await t, .ok x⟩ ∈ hist ∧ x.key = path

/-- A path was noted for a base path, and the module is the one at this path, or what the task has come
    to that executes it. -/
def Discovered (basePath : String) (x : Loaded) : Prop :=
  ∃ path, ⟨.store (.setResolved basePath path), ()⟩ ∈ hist ∧ (x.key = path ∨
    ∃ l source t, ⟨.shareExecute l path source, .inr t⟩ ∈ hist ∧ ⟨.await t, .ok x⟩ ∈ hist)

/-- No first stage has been joined or started. -/
def Unjoined : Prop := ∀ l basePath t, ⟨.shareResolve l basePath, t⟩ ∉ hist

end History

/-- What a piece of work looks up and remembers. -/
def Work.LooksUp (work : Work) (hist : History) : Op → Prop
  | .store (.pathOf key) =>
      hist = [] ∧ ∃ s d, work.localRequest? = some (s, d) ∧ key = LocalPath.key s d
  | .store (.registered name) => work.remoteName? = some name
  | .store (.setAlias key path) => ∃ s d basePath, work.localRequest? = some (s, d) ∧
      key = LocalPath.key s d ∧ LocalPath.resolve s d work.loader.page = .ok basePath ∧
      hist.Reached basePath path
  | _ => True

/-- How a piece of work seeks a local module. -/
structure Work.Seeks (work : Work) (hist : History) (o : Op) : Prop where
  looksUp : work.LooksUp hist o
  lands : ∀ s d, work.localRequest? = some (s, d) → ¬ hist.Unjoined → o.Lands s d

/-- The first stage comes to the module at the path that it has found. -/
def Work.Discovers (work : Work) (hist : History) (r : Outcome) : Prop :=
  ∀ basePath x, work.job = .resolve basePath → r = .ok (some x) → hist.Discovered basePath x

/-! ## Section 2: Programs -/

section Programs

variable {work : Work} {hist : History}

theorem History.unjoined_nil : History.Unjoined [] := fun _ _ _ => List.not_mem_nil

theorem History.Unjoined.cons (hUnjoined : hist.Unjoined) {o : Op} (r : o.Reply)
    (hNot : ∀ l basePath, o ≠ .shareResolve l basePath) : History.Unjoined (⟨o, r⟩ :: hist) := by
  intro l basePath t hMem
  rcases List.mem_cons.mp hMem with hEq | hMem
  · exact hNot l basePath (Answered.mk.inj hEq).1.symm
  · exact hUnjoined l basePath t hMem

theorem History.Discovered.mono {hist' : History} {basePath : String} {x : Loaded}
    (hDiscovered : hist.Discovered basePath x) (hSub : hist ⊆ hist') :
    hist'.Discovered basePath x := by
  obtain ⟨path, hNoted, hIs | ⟨l, source, t, hJoin, hAwait⟩⟩ := hDiscovered
  · exact ⟨path, hSub hNoted, Or.inl hIs⟩
  · exact ⟨path, hSub hNoted, Or.inr ⟨l, source, t, hSub hJoin, hSub hAwait⟩⟩

namespace Work

theorem LooksUp.of_not_seeking {o : Op} (hNot : o.isSeeking = false) : work.LooksUp hist o := by
  cases o with
  | store o =>
    cases o with
    | registered name => cases hNot
    | pathOf key => cases hNot
    | setAlias key path => cases hNot
    | _ => trivial
  | _ => trivial

/-- Work that asks for no local module only has to leave alone what specifiers mean. -/
theorem Seeks.of_none {o : Op} (hNone : work.localRequest? = none) (hNot : o.isSeeking = false) :
    work.Seeks hist o where
  looksUp := .of_not_seeking hNot
  lands s d hRequest := by simp [hNone] at hRequest

theorem Seeks.of_unjoined {o : Op} (hLooksUp : work.LooksUp hist o) (hUnjoined : hist.Unjoined) :
    work.Seeks hist o where
  looksUp := hLooksUp
  lands _ _ _ hJoined := absurd hUnjoined hJoined

theorem Seeks.of_lands {o : Op} {specifier dir : String} (hLooksUp : work.LooksUp hist o)
    (hRequest : work.localRequest? = some (specifier, dir)) (hLands : o.Lands specifier dir) :
    work.Seeks hist o where
  looksUp := hLooksUp
  lands s d hIs _ := by
    obtain ⟨rfl, rfl⟩ := Prod.mk.inj (Option.some.inj (hRequest.symm.trans hIs))
    exact hLands

end Work

namespace Load

open Attempt (obeys_bind obeys_lift_bind)

variable {l : Loader} {specifier dir : String}

/-! ### Requests -/

/-- What is remembered is looked up in the cache. -/
theorem seeks_remembered (hUnjoined : hist.Unjoined) (path : Option String) :
    (remembered path).Obeys work.Seeks (fun hist' hit => hist'.Unjoined ∧
      ∀ p i, hit = some (p, i) → path = some p) hist := by
  cases path with
  | none => exact .done ⟨hUnjoined, fun p i hIs => by cases hIs⟩
  | some path =>
    refine .ask (.of_unjoined trivial hUnjoined) fun found => ?_
    have hUnjoined' : History.Unjoined (⟨.store (.cached path), found⟩ :: hist) :=
      hUnjoined.cons _ fun _ _ hIs => by cases hIs
    cases found with
    | none => exact .done ⟨hUnjoined', fun p i hIs => by cases hIs⟩
    | some i =>
      refine .done ⟨hUnjoined', fun p j hIs => ?_⟩
      obtain ⟨rfl, -⟩ := Prod.mk.inj (Option.some.inj hIs)
      rfl

theorem seeks_land {basePath : String} {x : Loaded}
    (hRequest : work.localRequest? = some (specifier, dir))
    (hResolve : LocalPath.resolve specifier dir work.loader.page = .ok basePath)
    (hReached : hist.Reached basePath x.key) :
    (land (LocalPath.key specifier dir) specifier x).run.Obeys work.Seeks (fun _ _ => True)
      hist := by
  have hAlias : work.Seeks hist (.store (.setAlias (LocalPath.key specifier dir) x.key)) :=
    .of_lands ⟨specifier, dir, basePath, hRequest, rfl, hResolve, hReached⟩ hRequest rfl
  generalize LocalPath.key specifier dir = key at hAlias
  exact .ask hAlias fun _ => .ask (.of_lands trivial hRequest rfl) fun _ => .done trivial

/-- A request asks for the alias, takes what was found for its base path, or joins the first stage. -/
theorem seeks_findLocal (hLoader : work.loader = l)
    (hRequest : work.localRequest? = some (specifier, dir)) :
    (findLocal l specifier dir).run.Obeys work.Seeks (fun _ _ => True) [] := by
  subst hLoader
  have hPathOf : work.Seeks [] (.store (.pathOf (LocalPath.key specifier dir))) :=
    .of_unjoined ⟨rfl, specifier, dir, hRequest, rfl⟩ History.unjoined_nil
  refine .ask hPathOf fun path => ?_
  have hUnjoined := History.unjoined_nil.cons (o := .store (.pathOf (LocalPath.key specifier dir)))
    path fun _ _ hIs => by cases hIs
  refine obeys_lift_bind (seeks_remembered hUnjoined path) fun hist₁ hit _ hQ => ?_
  obtain ⟨hUnjoined₁, -⟩ := hQ
  cases hit with
  | some x => exact .ask (.of_unjoined trivial hUnjoined₁) fun _ => .done trivial
  | none =>
    -- What has been found for the base path comes before the first stage, which is joined last.
    refine obeys_bind (Q := fun hist r =>
      r = LocalPath.resolve specifier dir work.loader.page ∧ hist.Unjoined)
      (.done ⟨rfl, hUnjoined₁⟩) (fun _ _ _ => trivial) fun hist₂ basePath _ hQ => ?_
    obtain ⟨hResolve, hUnjoined₂⟩ := hQ
    refine .ask (.of_unjoined trivial hUnjoined₂) fun path => ?_
    have hUnjoined₃ := hUnjoined₂.cons (o := .store (.resolved basePath)) path
      fun _ _ hIs => by cases hIs
    refine obeys_lift_bind (seeks_remembered hUnjoined₃ path) fun hist₄ hit hSub hQ => ?_
    obtain ⟨hUnjoined₄, hSame⟩ := hQ
    cases hit with
    | some x =>
      obtain ⟨p, i⟩ := x
      refine seeks_land hRequest hResolve.symm (Or.inl (hSub ?_))
      rw [hSame p i rfl]
      exact List.mem_cons_self
    | none =>
      refine obeys_bind (Q := fun hist r => ∀ x, r = .ok x → hist.Reached basePath x.key) ?_
        (fun _ _ _ => trivial) fun hist₅ x _ hReached =>
          seeks_land hRequest hResolve.symm (hReached x rfl)
      refine .ask (.of_unjoined trivial hUnjoined₄) fun t => ?_
      refine .ask (.of_lands trivial hRequest trivial) fun r => .done fun x hIs => ?_
      subst hIs
      exact Or.inr ⟨work.loader, t, x, List.mem_cons_of_mem _ List.mem_cons_self,
        List.mem_cons_self, rfl⟩

/-- A local name is looked for as a local module, and nowhere else. -/
theorem requireLoaded_of_local {name : String} {dir : Option String}
    (hLocal : (l.hasLocal && LocalPath.isLocal name) = true) :
    requireLoaded l name dir = findLocal l name (dir.getD l.entryDir) := by
  unfold requireLoaded route
  rw [if_pos hLocal]
  rfl

/-- Any other name is looked up in the registry, and is not looked for as a local module. -/
theorem seeks_route {name : String} (hName : work.remoteName? = some name)
    (hNone : work.localRequest? = none)
    (hLocal : (l.hasLocal && LocalPath.isLocal name) = false) :
    (route l name).Obeys work.Seeks (fun _ way => way ≠ .localModule) hist := by
  unfold route
  rw [if_neg (by simp [hLocal])]
  refine .ask ⟨hName, fun s d hRequest => by simp [hNone] at hRequest⟩ fun found => ?_
  cases found with
  | some i => exact .done (by simp)
  | none =>
    split
    · exact .done (by simp)
    · exact .done (by simp)

theorem seeks_loadWithRule {name : String} (r : Rule) (hNone : work.localRequest? = none) :
    (loadWithRule l name r).run.Obeys work.Seeks (fun _ _ => True) hist := by
  refine Only.obeys (only_loadWithRule l name r) fun hist o hOp => .of_none hNone ?_
  rcases hOp with hLoading | ⟨i, rfl | rfl⟩
  · exact Op.isSeeking_of_isLoading hLoading
  · rfl
  · rfl

/-! ### The two stages -/

/-- The first stage notes the path that it finds, and comes to the module there. -/
theorem seeks_findAndExecute (basePath : String) :
    (findAndExecute l basePath).run.Obeys (Work.Seeks ⟨l, .resolve basePath⟩)
      (fun hist r => ∀ x, r = .ok x → hist.Discovered basePath x) hist := by
  have hFetch : (fetchSource l basePath).run.Obeys (Work.Seeks ⟨l, .resolve basePath⟩)
      (fun _ _ => True) hist :=
    Only.obeys (plain_fetchFirst basePath _ _) fun _ _ hPlain =>
      .of_none rfl (Op.isSeeking_of_isPlain hPlain)
  refine obeys_bind hFetch (fun _ _ _ _ hIs => by cases hIs) fun hist₁ found _ _ => ?_
  obtain ⟨path, source⟩ := found
  refine .ask (.of_none rfl rfl) fun _ => .ask (.of_none rfl rfl) fun r => ?_
  cases r with
  | inl i =>
    refine .done fun x hIs => ⟨path, by simp, Or.inl ?_⟩
    rw [← Except.ok.inj hIs]
  | inr t =>
    refine .ask (.of_none rfl rfl) fun r => .done fun x hIs => ?_
    subst hIs
    exact ⟨path, by simp, Or.inr ⟨l, source, t, by simp, by simp⟩⟩

theorem only_executeSource (path source : String) :
    (executeSource l path source).Only (·.isSeeking = false) := by
  have hRun : (runSource l path source (LocalPath.baseDirOf path)).Only (·.isSeeking = false) :=
    (plain_runSource path source _).imp fun _ => Op.isSeeking_of_isPlain
  refine hRun.bind fun exports => ?_
  exact .ask rfl fun i => .ask rfl fun _ => .ask rfl fun _ => .done _

end Load

/-! ### All work -/

namespace Work

/-- Work that asks for no local module and is not the first stage. -/
theorem seeks_of_only {p : Load Outcome} (hOnly : p.Only (·.isSeeking = false))
    (hNone : work.localRequest? = none) (hJob : ∀ basePath, work.job ≠ .resolve basePath) :
    p.Obeys work.Seeks work.Discovers hist :=
  (hOnly.obeys fun _ _ hNot => .of_none hNone hNot).imp
    fun _ _ _ basePath _ hIs => absurd hIs (hJob basePath)

/-- Work by name, or for a local module, goes on with what its program comes to. -/
theorem seeks_named {p : Attempt Loaded} {f : Except Failure Loaded → Load Outcome}
    {g : Except Failure Loaded → Outcome} (hFirst : p.run.Obeys work.Seeks (fun _ _ => True) hist)
    (hDone : ∀ r, f r = .done (g r)) (hJob : ∀ basePath, work.job ≠ .resolve basePath) :
    (p.run >>= f).Obeys work.Seeks work.Discovers hist := by
  refine hFirst.bind fun _ r _ _ => ?_
  rw [hDone]
  exact .done fun basePath _ hIs => absurd hIs (hJob basePath)

theorem seeks_requireLoaded {name : String} {dir : Option String}
    (hJob : work.job = .member name dir ∨ work.job = .call name dir) :
    (Load.requireLoaded work.loader name dir).run.Obeys work.Seeks (fun _ _ => True) [] := by
  obtain ⟨l, job⟩ := work
  by_cases hLocal : (l.hasLocal && LocalPath.isLocal name) = true
  · rw [Load.requireLoaded_of_local hLocal]
    refine Load.seeks_findLocal rfl ?_
    rcases hJob with rfl | rfl
    · exact if_pos hLocal
    · exact if_pos hLocal
  · have hName : (⟨l, job⟩ : Work).remoteName? = some name := by
      rcases hJob with rfl | rfl
      · exact if_neg hLocal
      · exact if_neg hLocal
    have hNone : (⟨l, job⟩ : Work).localRequest? = none := by
      rcases hJob with rfl | rfl
      · exact if_neg hLocal
      · exact if_neg hLocal
    refine Attempt.obeys_lift_bind (Load.seeks_route hName hNone (by simpa using hLocal))
      fun hist₁ way _ hWay => ?_
    cases way with
    | registered i => exact .done trivial
    | localModule => exact absurd rfl hWay
    | rule r =>
      exact Attempt.obeys_bind (Load.seeks_loadWithRule r hNone) (fun _ _ _ => trivial)
        fun _ _ _ _ => .done trivial
    | unknown => exact .done trivial

/-- **Every piece of work seeks local modules by its rule.** -/
theorem seeks (work : Work) : work.program.Obeys work.Seeks work.Discovers [] := by
  obtain ⟨l, job⟩ := work
  cases job with
  | resolve basePath =>
    refine Load.Obeys.bind (Q := fun hist r => ∀ x, r = .ok x → hist.Discovered basePath x) ?_
      fun hist r _ hQ => .done ?_
    · refine (Load.seeks_findAndExecute basePath).bind fun hist r _ hQ => ?_
      refine .ask (.of_none rfl rfl) fun _ => .done fun x hIs => ?_
      exact (hQ x hIs).mono (List.subset_cons_self _ _)
    · intro b x hJob hIs
      obtain rfl := Job.resolve.inj hJob
      cases r with
      | error e => cases hIs
      | ok y => exact hQ x (congrArg Except.ok (Option.some.inj (Except.ok.inj hIs)))
  | execute path source =>
    refine seeks_of_only ?_ rfl fun _ hIs => by cases hIs
    refine Load.Only.bind (Load.Only.bind (Load.only_executeSource path source) fun r => ?_)
      fun r => .done _
    exact .ask rfl fun _ => .done _
  | member name dir =>
    exact seeks_named (g := fun r => (r.map some).mapError (.preload name))
      (seeks_requireLoaded (Or.inl rfl)) (fun r => by cases r <;> rfl) fun _ hIs => by cases hIs
  | call name dir =>
    exact seeks_named (seeks_requireLoaded (Or.inr rfl)) (fun _ => rfl) fun _ hIs => by cases hIs
  | load specifier dir =>
    exact seeks_named (Load.seeks_findLocal rfl rfl) (fun _ => rfl) fun _ hIs => by cases hIs
  | tool d =>
    have hTool : (Load.loadTool l d).Only (·.isSeeking = false) :=
      (Load.nameless_loadTool l d).imp fun _ => Op.isSeeking_of_isLoading
    exact seeks_of_only (Load.Only.bind hTool fun _ => .done _) rfl fun _ hIs => by cases hIs
  | preload source dir =>
    have hPreload : (Load.preload l source dir).Only (·.isSeeking = false) :=
      (Load.plain_preload source dir).imp fun _ => Op.isSeeking_of_isPlain
    exact seeks_of_only (Load.Only.bind hPreload fun _ => .done _) rfl fun _ hIs => by cases hIs
  | enter entry dir =>
    have hEnter : (Load.runEntry l entry dir).Only (·.isSeeking = false) :=
      (Load.plain_runEntry entry dir).imp fun _ => Op.isSeeking_of_isPlain
    exact seeks_of_only (Load.Only.bind hEnter fun _ => .done _) rfl fun _ hIs => by cases hIs

end Work

end Programs

/-! ## Section 3: Where paths come from -/

namespace World

variable {h : Host} {l l' : Loader} {w₀ w : World} {past : List Label} {t k : TaskId}
variable {basePath path : String} {x : Loaded}

/-- Who waits for a module gets what the other task has come to. -/
theorem Run.outcome_of_await {asks : Work → Prop} (hRun : Run h asks w₀ past w)
    (hAct : .act t (.await k) (.ok x) ∈ past) : w.outcome? k = some (.ok (some x)) := by
  obtain ⟨before, after, v, v', -, -, hStep, hAfter⟩ := hRun.exists_step hAct
  refine hAfter.outcome? (hStep.outcome? ?_)
  cases hStep with
  | act _ hAnswer => exact outcome?_of_loaded? hAnswer.await.1

/-- What was found for a base path had been noted. -/
theorem Run.noted_of_resolved {asks : Work → Prop} (hRun : Run h asks w₀ past w) (hFresh : w₀.Fresh)
    (hAct : .act t (.store (.resolved basePath)) (some path) ∈ past) :
    ∃ k, .act k (.store (.setResolved basePath path)) () ∈ past := by
  obtain ⟨before, after, v, v', rfl, hBefore, hStep, -⟩ := hRun.exists_step hAct
  cases hStep with
  | act _ hAnswer =>
    obtain ⟨hFound, -⟩ := hAnswer.store
    obtain ⟨k, hNoted⟩ := (hBefore.written hFresh).resolved basePath path hFound.symm
    exact ⟨k, List.mem_append_right _ (List.mem_cons_of_mem _ hNoted)⟩

/-- What is noted for a base path is one of the paths that it can be found at. -/
theorem Run.finds_of_noted (hRun : Run h l.Asks w₀ past w) (hFresh : w₀.Fresh)
    (hNoted : .act t (.store (.setResolved basePath path)) () ∈ past) : l.Finds basePath path := by
  obtain ⟨before, after, v, v', -, hBefore, hStep, -⟩ := hRun.exists_step hNoted
  cases hStep with
  | @act _ _ work _ _ _ hTask _ =>
    have hMay : LocalMay l work t (.store (.setResolved basePath path)) ⟨v, before⟩ :=
      (hBefore.adequate hFresh).may hTask
    exact hMay

/-- What was found under a key had been remembered. -/
theorem Run.kept_of_found {asks : Work → Prop} (hRun : Run h asks w₀ past w) (hFresh : w₀.Fresh)
    {key : String} (hFound : Moment.Found ⟨w, past⟩ t key path) :
    ∃ k, .act k (.store (.setAlias key path)) () ∈ past := by
  rcases hFound with hAct | hKept
  · obtain ⟨before, after, v, v', rfl, hBefore, hStep, -⟩ := hRun.exists_step hAct
    cases hStep with
    | act _ hAnswer =>
      obtain ⟨hIs, -⟩ := hAnswer.store
      obtain ⟨k, hKept⟩ := (hBefore.written hFresh).aliases key path hIs.symm
      exact ⟨k, List.mem_append_right _ (List.mem_cons_of_mem _ hKept)⟩
  · exact ⟨t, hKept⟩

/-- Who joins the first stage waits for the task that finds out what the base path means. -/
theorem Run.resolves_of_join (hRun : Run h l.Asks w₀ past w) (hFresh : w₀.Fresh)
    (hAct : .act t (.shareResolve l' basePath) k ∈ past) : w.Resolves k basePath := by
  obtain ⟨before, after, v, v', -, hBefore, hStep, hAfter⟩ := hRun.exists_step hAct
  have hInv : LocalInv l ⟨v, before⟩ := (hBefore.adequate hFresh).holds.inv
  have hWork : ∃ l'', v'.workOf? k = some ⟨l'', .resolve basePath⟩ := by
    cases hStep with
    | act _ hAnswer =>
      simp only [workOf?_setProgram]
      rcases hAnswer.shareResolve with ⟨hEntry, rfl⟩ | ⟨-, rfl, rfl⟩
      · exact hInv.resolving basePath k hEntry
      · exact ⟨l', (starts_start _).workOf?_new⟩
  obtain ⟨l'', hWork⟩ := hWork
  exact ⟨l'', hAfter.workOf? hWork⟩

/-- Who joins the second stage waits for the task that executes the module. -/
theorem Run.executes_of_join (hRun : Run h l.Asks w₀ past w) (hFresh : w₀.Fresh) {source : String}
    (hAct : .act t (.shareExecute l' path source) (.inr k) ∈ past) : w.Executes k path := by
  obtain ⟨before, after, v, v', -, hBefore, hStep, hAfter⟩ := hRun.exists_step hAct
  have hInv : LocalInv l ⟨v, before⟩ := (hBefore.adequate hFresh).holds.inv
  have hWork : ∃ l'' source', v'.workOf? k = some ⟨l'', .execute path source'⟩ := by
    cases hStep with
    | act _ hAnswer =>
      simp only [workOf?_setProgram]
      rcases hAnswer.shareExecute with ⟨j, hIs, hEntry, rfl⟩ | ⟨i, hIs, -, -⟩ | ⟨hIs, -, -, rfl⟩
      · obtain rfl := Sum.inr.inj hIs
        exact hInv.executing path k hEntry
      · cases hIs
      · obtain rfl := Sum.inr.inj hIs
        exact ⟨l', source, (starts_start _).workOf?_new⟩
  obtain ⟨l'', source', hWork⟩ := hWork
  exact ⟨l'', source', hAfter.workOf? hWork⟩

/-- What the first stage comes to for a base path is at the path that was noted. -/
theorem Run.noted_of_outcome (hRun : Run h l.Asks w₀ past w) (hFresh : w₀.Fresh)
    (hResolves : w.Resolves k basePath) (hOutcome : w.outcome? k = some (.ok (some x))) :
    .act k (.store (.setResolved basePath x.key)) () ∈ past := by
  obtain ⟨l', hWork⟩ := hResolves
  have hNew := hRun.le_of_work hFresh hWork fun d hTool => by cases hTool
  obtain ⟨path, hNoted, hIs | ⟨l'', source, j, hJoin, hAwait⟩⟩ :=
    hRun.ends_of (Work.seeks _) hWork hNew hOutcome basePath x rfl rfl
  · rw [hIs]
    exact mem_historyOf.mp hNoted
  · -- The task that executes the module comes to it under its path.
    have hExecutes := hRun.executes_of_join hFresh (mem_historyOf.mp hJoin)
    have hDone := hRun.outcome_of_await (mem_historyOf.mp hAwait)
    obtain ⟨i, hKey, -⟩ := hRun.succeeded_of_outcome hFresh hExecutes hDone
    obtain rfl := Option.some.inj hKey
    exact mem_historyOf.mp hNoted

/-- **A path is remembered only for who has asked for it**: for a request whose base path was found to
    mean this path. -/
theorem Run.noted_of_remembered (hRun : Run h l.Asks w₀ past w) (hFresh : w₀.Fresh) {key : String}
    (hKept : .act t (.store (.setAlias key path)) () ∈ past) :
    ∃ work s d basePath k, w.workOf? t = some work ∧ work.localRequest? = some (s, d) ∧
      key = LocalPath.key s d ∧ LocalPath.resolve s d l.page = .ok basePath ∧
      .act k (.store (.setResolved basePath path)) () ∈ past := by
  obtain ⟨work, hWork⟩ := hRun.exists_work hKept
  have hNew := hRun.le_of_keeping hFresh hKept rfl
  obtain ⟨before, hSub, hSeeks⟩ := hRun.allowed_of (Work.seeks work) hWork hNew hKept
  obtain ⟨s, d, basePath, hRequest, hKey, hResolve, hReached⟩ := hSeeks.looksUp
  rw [(hRun.serves hFresh hNew hWork).1] at hResolve
  have hNoted : ∃ k, .act k (.store (.setResolved basePath path)) () ∈ past := by
    rcases hReached with hFound | ⟨l', k, x, hJoin, hAwait, rfl⟩
    · exact hRun.noted_of_resolved hFresh (mem_historyOf.mp (hSub hFound))
    · have hResolves := hRun.resolves_of_join hFresh (mem_historyOf.mp (hSub hJoin))
      have hDone := hRun.outcome_of_await (mem_historyOf.mp (hSub hAwait))
      exact ⟨k, hRun.noted_of_outcome hFresh hResolves hDone⟩
  obtain ⟨k, hNoted⟩ := hNoted
  exact ⟨work, s, d, basePath, k, hWork, hRequest, hKey, hResolve, hNoted⟩

end World

end Bundleless
