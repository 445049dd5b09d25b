import Bundleless.Proofs.Callers

/-! # Runs without their caller

    A run is followed by another one in which the task of the caller stands
    still. Whoever cannot tell the worlds apart makes the same step in both.
    Only a request for the same key can notice: it hits the alias in the one,
    and finds the same path by its base path in the other, and so for one
    look into the cache the second run is ahead.
-/

namespace Bundleless

variable {h : Host} {l : Loader} {w w' w₁ v : World} {more more' : List Label} {t c : TaskId}
  {specifier dir path : String}

/-! ## Section 1: Requests for the same key -/

theorem Op.isOutside_of_isFinding {o : Op} (hFinding : o.isFinding = true) : o.isOutside = false := by
  unfold Op.isOutside
  split
  all_goals first | cases hFinding | rfl

namespace Load

/-- What a request for a local module has before it. -/
theorem exists_program_of_request {work : Work} {s d : String}
    (hRequest : work.localRequest? = some (s, d)) :
    ∃ g : Except Failure Loaded → Outcome, work.program =
      (findLocal work.loader s d).run >>= fun r => .done (g r) := by
  obtain ⟨l, job⟩ := work
  cases job with
  | member name dir =>
    obtain ⟨hLocal, hIs⟩ := Option.ite_none_right_eq_some.mp hRequest
    obtain ⟨rfl, rfl⟩ := Prod.mk.inj (Option.some.inj hIs)
    refine ⟨fun r => (r.map some).mapError (.preload name), ?_⟩
    show ((requireLoaded l name dir).run >>= fun r => _) = _
    rw [requireLoaded_of_local hLocal]
    congr 1
    funext r
    cases r with
    | ok x => rfl
    | error e => rfl
  | call name dir =>
    obtain ⟨hLocal, hIs⟩ := Option.ite_none_right_eq_some.mp hRequest
    obtain ⟨rfl, rfl⟩ := Prod.mk.inj (Option.some.inj hIs)
    rw [← requireLoaded_of_local hLocal]
    exact ⟨_, rfl⟩
  | load specifier dir =>
    obtain ⟨rfl, rfl⟩ := Prod.mk.inj (Option.some.inj hRequest)
    exact ⟨_, rfl⟩
  | _ => cases hRequest

/-- A request asks for the alias. It takes the module at the path that it finds. -/
theorem findLocal_eq_ask (l : Loader) (s d : String) : ∃ next,
    (findLocal l s d).run = .ask (.store (.pathOf (LocalPath.key s d))) next ∧
    ∀ path, ∃ rest, next (some path) = .ask (.store (.cached path)) rest ∧
      ∀ i, rest (some i) = .ask (.store (.register s i)) fun _ => .done (.ok ⟨path, i⟩) :=
  ⟨_, rfl, fun _ => ⟨_, rfl, fun _ => rfl⟩⟩

/-- Without an alias it takes the module at the path that was found for the base path, and remembers
    the path first. -/
theorem goes_findLocal {s d basePath : String} {i : Instance}
    (hNone : w.store.aliases.get? (LocalPath.key s d) = none)
    (hResolve : LocalPath.resolve s d l.page = .ok basePath)
    (hResolved : w.store.resolved.get? basePath = some path)
    (hCached : w.store.cache.get? path = some i) :
    Goes h (findLocal l s d).run w
      (.ask (.store (.register s i)) fun _ => .done (.ok ⟨path, i⟩))
      (w.withStore
        { w.store with aliases := w.store.aliases.insert (LocalPath.key s d) path }) := by
  unfold findLocal
  generalize LocalPath.key s d = key at hNone
  have hFirst : (StoreOp.pathOf key).apply w.store = (none, w.store) := Prod.ext hNone rfl
  have hThen : (StoreOp.resolved basePath).apply w.store = (some path, w.store) :=
    Prod.ext hResolved rfl
  have hLast : (StoreOp.cached path).apply w.store = (some i, w.store) := Prod.ext hCached rfl
  refine .read hFirst ?_
  simp only [hResolve]
  exact .read hThen (.read hLast (.store (.refl _ _)))

/-- A request for a local module asks nothing of the outside itself. -/
theorem inside_request {work : Work} {s d : String} (hRequest : work.localRequest? = some (s, d)) :
    work.program.Only (·.isOutside = false) := by
  obtain ⟨g, hIs⟩ := exists_program_of_request hRequest
  rw [hIs]
  refine ((only_findLocal s d).imp fun o hOp => ?_).bind fun r => .done _
  rcases hOp with hFinding | ⟨j, rfl⟩
  · exact Op.isOutside_of_isFinding hFinding
  · rfl

/-- Where the path was found for the base path, a request comes to the same by the alias, with one look
    into the cache, and by itself where there is none. -/
theorem exists_look {work : Work} {next : Option String → Load Outcome} {s d basePath : String}
    {i : Instance} (hRequest : work.localRequest? = some (s, d))
    (hProgram : work.program = .ask (.store (.pathOf (LocalPath.key s d))) next)
    (hNone : w.store.aliases.get? (LocalPath.key s d) = none)
    (hResolve : LocalPath.resolve s d work.loader.page = .ok basePath)
    (hResolved : w.store.resolved.get? basePath = some path)
    (hCached : w.store.cache.get? path = some i) : ∃ rest,
    next (some path) = .ask (.store (.cached path)) rest ∧ (rest (some i)).result? = none ∧
    work.program.Goes h w (rest (some i)) (w.withStore
      { w.store with aliases := w.store.aliases.insert (LocalPath.key s d) path }) := by
  obtain ⟨g, hIs⟩ := exists_program_of_request hRequest
  obtain ⟨first, hFirst, hHit⟩ := findLocal_eq_ask work.loader s d
  obtain ⟨rest, hLook, hRest⟩ := hHit path
  have hNext : next = fun found => first found >>= fun r => .done (g r) := by
    have hBoth := hProgram.symm.trans hIs
    rw [hFirst] at hBoth
    exact eq_of_heq (ask.inj hBoth).2
  refine ⟨fun found => rest found >>= fun r => .done (g r), ?_, ?_, ?_⟩
  · rw [hNext]
    dsimp only
    rw [hLook]
    rfl
  · dsimp only
    rw [hRest i]
    rfl
  · dsimp only
    rw [hIs, hRest i]
    exact (goes_findLocal hNone hResolve hResolved hCached).bind _

end Load

/-- Of what such a program does alone nothing comes from outside. -/
theorem World.Run.inside_of_alone {asks : Work → Prop} {steps : List Label} {work : Work}
    {p : Load Outcome} (hRun : World.Run h asks v steps w) (hTask : v.tasks[t]? = some ⟨work, p⟩)
    (hInside : p.Only (·.isOutside = false)) (hAlone : ∀ step ∈ steps, ∃ o r, step = .act t o r) :
    steps.filter (·.isOutside) = [] := by
  rw [List.filter_eq_nil_iff]
  intro step hMem
  obtain ⟨o, r, rfl⟩ := hAlone step hMem
  have hLt : t < v.tasks.length := (List.getElem?_eq_some_iff.mp hTask).1
  have hNot : o.isOutside = false := by
    refine hRun.only_of_lt (P := (·.isOutside = false)) (fun task hAt => ?_) hLt hMem
    obtain rfl := Option.some.inj (hTask.symm.trans hAt)
    exact hInside
  simp [Label.isOutside, hNot]

/-! ## Section 2: What is before the tasks -/

namespace Load

/-- The first program is where the second one is, or one look into the cache behind it. -/
inductive Behind (s : Store) : Load Outcome → Load Outcome → Prop
  | same (p : Load Outcome) : Behind s p p
  | look {path : String} {i : Instance} {rest : Option Instance → Load Outcome}
      (hCached : s.cache.get? path = some i) :
      Behind s (.ask (.store (.cached path)) rest) (rest (some i))

theorem Behind.mono {s s' : Store} {p p' : Load Outcome} (hBehind : Behind s p p')
    (hCache : ∀ path i, s.cache.get? path = some i → s'.cache.get? path = some i) :
    Behind s' p p' := by
  cases hBehind with
  | same p => exact .same p
  | look hCached => exact .look (hCache _ _ hCached)

end Load

namespace World

/-- Each task but the caller is in the second world where it is in the first one, or ahead of it. -/
def Follows (c : TaskId) (w v : World) : Prop :=
  ∀ t work p, t ≠ c → w.tasks[t]? = some ⟨work, p⟩ →
    ∃ p', v.tasks[t]? = some ⟨work, p'⟩ ∧ p.Behind w.store p'

namespace Follows

theorem refl (c : TaskId) (w : World) : w.Follows c w :=
  fun _ _ p _ hTask => ⟨p, hTask, .same p⟩

/-- The same tasks are started in both. -/
theorem starts {v' : World} {key : String} {works works' : List Work} (hFollows : w.Follows c v)
    (hStarts : w.Starts w' works) (hStarts' : v.Starts v' works')
    (hLength : v.tasks.length = w.tasks.length) (hSame : w'.SameBut c key specifier v')
    (hCache : ∀ path i, w.store.cache.get? path = some i → w'.store.cache.get? path = some i) :
    w'.Follows c v' := by
  intro t work p hNe hTask
  rcases Nat.lt_or_ge t w.tasks.length with hLt | hGe
  · rw [hStarts.getElem?_of_lt hLt] at hTask
    obtain ⟨p', hTask', hBehind⟩ := hFollows t work p hNe hTask
    exact ⟨p', hStarts'.getElem?_of_task hTask', hBehind.mono hCache⟩
  · -- A new task has its whole program before it in either.
    have hProgram : p = work.program := (hStarts.program_of_le hGe hTask).2
    have hWork : v'.workOf? t = some work := (hSame.works t).trans (workOf?_of_task hTask)
    obtain ⟨⟨work', p'⟩, hTask', rfl⟩ := Option.map_eq_some_iff.mp hWork
    rw [← hLength] at hGe
    have hProgram' : p' = work'.program := (hStarts'.program_of_le hGe hTask').2
    rw [hProgram]
    exact ⟨p', hTask', hProgram' ▸ .same _⟩

/-- A task goes on in both. -/
theorem setProgram (hFollows : w.Follows c v) (t : TaskId) {p p' : Load Outcome}
    (hBehind : p.Behind w.store p') : (w.setProgram t p).Follows c (v.setProgram t p') := by
  intro k work q hNe hTask
  by_cases hEq : k = t
  · subst hEq
    obtain ⟨⟨work', q₀⟩, hOld, hIs⟩ : ∃ task, w.tasks[k]? = some task ∧
        { task with program := p } = (⟨work, q⟩ : Task) := by
      simpa [World.setProgram] using hTask
    obtain ⟨rfl, rfl⟩ := Task.mk.inj hIs
    obtain ⟨q', hOld', -⟩ := hFollows k work' q₀ hNe hOld
    exact ⟨p', getElem?_setProgram_self hOld', hBehind⟩
  · rw [getElem?_setProgram_of_ne _ hEq] at hTask
    obtain ⟨q', hTask', hBehind'⟩ := hFollows k work q hNe hTask
    exact ⟨q', (getElem?_setProgram_of_ne _ hEq).trans hTask', hBehind'⟩

/-- How far the caller is does not matter. -/
theorem setProgram_left (hFollows : w.Follows c v) (p : Load Outcome) :
    (w.setProgram c p).Follows c v := by
  intro k work q hNe hTask
  rw [getElem?_setProgram_of_ne _ hNe] at hTask
  exact hFollows k work q hNe hTask

end Follows

/-! ## Section 3: Steps -/

/-- The second run goes as the first one does, but the task of the caller makes no step in it: what is
    asked for and answered from outside is the same, and the worlds at the ends are alike. -/
structure Without (h : Host) (l : Loader) (w : World) (c : TaskId) (specifier dir : String)
    (more : List Label) (w₁ : World) (more' : List Label) (v : World) : Prop where
  run : Run h l.Asks w more' v
  dropped : ∀ o r, .act c o r ∉ more'
  outside : more'.filter (·.isOutside) = more.filter (·.isOutside)
  same : w₁.SameBut c (LocalPath.key specifier dir) specifier v

/-- So it goes, step by step: whatever a task has before it, and whatever was registered. -/
structure Shadowed (h : Host) (l : Loader) (w : World) (c : TaskId) (specifier dir : String)
    (more : List Label) (w₁ : World) (more' : List Label) (v : World) : Prop
    extends Without h l w c specifier dir more w₁ more' v where
  follows : w₁.Follows c v
  registers : ∀ t i, t ≠ c → .act t (.store (.register specifier i)) () ∈ more →
    .act t (.store (.register specifier i)) () ∈ more'

namespace Shadowed

theorem refl (h : Host) (l : Loader) (w : World) (c : TaskId) (specifier dir : String) :
    Shadowed h l w c specifier dir [] w [] w where
  run := .refl
  dropped _ _ := List.not_mem_nil
  outside := rfl
  same := .refl c _ specifier w
  follows := .refl c w
  registers _ _ _ hMem := hMem

/-- Something is asked for in both. -/
theorem start {work : Work} (hShadowed : Shadowed h l w c specifier dir more w₁ more' v)
    (hAsks : l.Asks work) : Shadowed h l w c specifier dir (.start work :: more)
      (w₁.start work).2 (.start work :: more') (v.start work).2 where
  run := hShadowed.run.tail (.start v hAsks)
  dropped o r hMem := by
    rcases List.mem_cons.mp hMem with hEq | hMem
    · cases hEq
    · exact hShadowed.dropped o r hMem
  outside := by
    rw [List.filter_cons_of_pos rfl, List.filter_cons_of_pos rfl, hShadowed.outside]
  same := hShadowed.same.start work
  follows := hShadowed.follows.starts (starts_start work) (starts_start work)
    hShadowed.same.length_eq (hShadowed.same.start work) fun _ _ hCached => hCached
  registers t i hNe hMem := by
    rcases List.mem_cons.mp hMem with hEq | hMem
    · cases hEq
    · exact List.mem_cons_of_mem _ (hShadowed.registers t i hNe hMem)

/-- A task does the same in both, where it cannot tell them apart. -/
theorem both {work : Work} {o : Op} {next : o.Reply → Load Outcome} {r : o.Reply}
    (hShadowed : Shadowed h l w c specifier dir more w₁ more' v) (hNe : t ≠ c)
    (hTask : v.tasks[t]? = some ⟨work, .ask o next⟩) (hAnswer : o.Answers h w₁ r w')
    (hBlind : o.Blind h c (LocalPath.key specifier dir) specifier w₁ v)
    (hCache : ∀ path i, w₁.store.cache.get? path = some i → w'.store.cache.get? path = some i) :
    ∃ v', Shadowed h l w c specifier dir (.act t o r :: more) (w'.setProgram t (next r))
      (.act t o r :: more') v' := by
  obtain ⟨v', hAnswer', hSame'⟩ := hAnswer.sameBut hShadowed.same hBlind
  obtain ⟨works, hStarts⟩ := hAnswer.starts
  obtain ⟨works', hStarts'⟩ := hAnswer'.starts
  have hFollows := hShadowed.follows.starts hStarts hStarts' hShadowed.same.length_eq hSame' hCache
  refine ⟨v'.setProgram t (next r), ⟨⟨hShadowed.run.tail (.act hTask hAnswer'), ?_, ?_,
    hSame'.setProgram t rfl⟩, hFollows.setProgram t (.same _), ?_⟩⟩
  · intro o' r' hMem
    rcases List.mem_cons.mp hMem with hEq | hMem
    · injection hEq with hIs
      exact hNe hIs.symm
    · exact hShadowed.dropped o' r' hMem
  · simp only [List.filter_cons, hShadowed.outside]
  · intro k i hNeK hMem
    rcases List.mem_cons.mp hMem with hEq | hMem
    · rw [hEq]
      exact List.mem_cons_self
    · exact List.mem_cons_of_mem _ (hShadowed.registers k i hNeK hMem)

/-- A task looks into the cache, and comes to where it is in the second world already. -/
theorem look {work : Work} {i : Instance} {rest : Option Instance → Load Outcome}
    (hShadowed : Shadowed h l w c specifier dir more w₁ more' v)
    (hTask : v.tasks[t]? = some ⟨work, rest (some i)⟩) :
    Shadowed h l w c specifier dir (.act t (.store (.cached path)) (some i) :: more)
      (w₁.setProgram t (rest (some i))) more' v := by
  have hStays : v.setProgram t (rest (some i)) = v := setProgram_eq_self hTask
  have hSame := hShadowed.same.setProgram t (p := rest (some i)) rfl
  have hFollows := hShadowed.follows.setProgram t (.same (rest (some i)))
  rw [hStays] at hSame hFollows
  refine ⟨⟨hShadowed.run, hShadowed.dropped, hShadowed.outside, hSame⟩, hFollows, ?_⟩
  intro k j hNe hMem
  rcases List.mem_cons.mp hMem with hEq | hMem
  · cases hEq
  · exact hShadowed.registers k j hNe hMem

/-- A request for the same key hits the alias in the first world. In the second one, where there is
    none, it finds the same path by its base path, and remembers it. -/
theorem hit {work : Work} {next : Option String → Load Outcome} {s d basePath : String} {i : Instance}
    (hShadowed : Shadowed h l w c specifier dir more w₁ more' v) (hNe : t ≠ c)
    (hTask : v.tasks[t]? = some ⟨work, work.program⟩)
    (hProgram : work.program = .ask (.store (.pathOf (LocalPath.key specifier dir))) next)
    (hRequest : work.localRequest? = some (s, d))
    (hKey : LocalPath.key specifier dir = LocalPath.key s d)
    (hNone : v.store.aliases.get? (LocalPath.key specifier dir) = none)
    (hAlias : w₁.store.aliases.get? (LocalPath.key specifier dir) = some path)
    (hResolve : LocalPath.resolve s d work.loader.page = .ok basePath)
    (hResolved : w₁.store.resolved.get? basePath = some path)
    (hCached : w₁.store.cache.get? path = some i) : ∃ more'' v',
    Shadowed h l w c specifier dir
      (.act t (.store (.pathOf (LocalPath.key specifier dir))) (some path) :: more)
      (w₁.setProgram t (next (some path))) more'' v' := by
  have hStore : v.store.resolved.get? basePath = some path ∧
      v.store.cache.get? path = some i := by
    rw [hShadowed.same.store.rest]
    exact ⟨hResolved, hCached⟩
  -- In the second world the task goes on by itself, as far as where the first one is heading.
  obtain ⟨rest, hLook, hOpen, hGoes⟩ := Load.exists_look (h := h) hRequest (hKey ▸ hProgram)
    (hKey ▸ hNone) hResolve hStore.1 hStore.2
  rw [← hKey] at hGoes
  obtain ⟨steps, hRun, hAlone⟩ := Run.of_goes l.Asks hTask hGoes
  have hInside := hRun.inside_of_alone hTask (Load.inside_request hRequest) hAlone
  have hSame := hShadowed.same.withStore (hShadowed.same.store.setAlias_right hAlias)
  have hBehind : (next (some path)).Behind w₁.store (rest (some i)) := by
    rw [hLook]
    exact .look hCached
  have hEnds : (rest (some i)).result? = (next (some path)).result? := by
    rw [hLook, hOpen]
    rfl
  refine ⟨steps ++ more', _, ⟨⟨hShadowed.run.append hRun, ?_, ?_, hSame.setProgram t hEnds⟩,
    hShadowed.follows.setProgram t hBehind, ?_⟩⟩
  · intro o r hMem
    rcases List.mem_append.mp hMem with hMem | hMem
    · obtain ⟨o', r', hEq⟩ := hAlone _ hMem
      injection hEq with hIs
      exact hNe hIs.symm
    · exact hShadowed.dropped o r hMem
  · rw [List.filter_append, hInside, List.filter_cons_of_neg (by simp [Label.isOutside, Op.isOutside]),
      List.nil_append, hShadowed.outside]
  · intro k j hNeK hMem
    rcases List.mem_cons.mp hMem with hEq | hMem
    · cases hEq
    · exact List.mem_append_right _ (hShadowed.registers k j hNeK hMem)

/-- The caller makes a step in the first world only. -/
theorem caller {o : Op} {r : o.Reply} {p : Load Outcome}
    (hShadowed : Shadowed h l w c specifier dir more w₁ more' v) (hAnswer : o.Answers h w₁ r w')
    (hLands : o.Lands specifier dir)
    (hMissing : ∀ path, o = .store (.setAlias (LocalPath.key specifier dir) path) →
      v.store.aliases.get? (LocalPath.key specifier dir) = none ∨
        v.store.aliases.get? (LocalPath.key specifier dir) = some path) :
    Shadowed h l w c specifier dir (.act c o r :: more) (w'.setProgram c p) more' v := by
  obtain ⟨s, rfl, hCache, hStore⟩ := hAnswer.lands hLands
  have hSame : (w₁.withStore s).SameBut c (LocalPath.key specifier dir) specifier v :=
    hShadowed.same.withStore (hStore _ hShadowed.same.store hMissing)
  have hFollows : (w₁.withStore s).Follows c v := by
    intro t work q hNe hTask
    obtain ⟨q', hTask', hBehind⟩ := hShadowed.follows t work q hNe hTask
    refine ⟨q', hTask', hBehind.mono fun path i hCached => ?_⟩
    show s.cache.get? path = some i
    rw [hCache]
    exact hCached
  refine ⟨⟨hShadowed.run, hShadowed.dropped, ?_, hSame.setProgram_left p⟩,
    hFollows.setProgram_left p, ?_⟩
  · rw [List.filter_cons_of_neg (by simp [Label.isOutside, hLands.isOutside]), hShadowed.outside]
  · intro k i hNe hMem
    rcases List.mem_cons.mp hMem with hEq | hMem
    · injection hEq with hIs
      exact absurd hIs hNe
    · exact hShadowed.registers k i hNe hMem

end Shadowed

end World

end Bundleless
