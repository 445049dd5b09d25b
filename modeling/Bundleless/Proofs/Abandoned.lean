import Bundleless.Proofs.Bindings
import Bundleless.Proofs.Following

/-! # Loads that outlive their callers

    A caller that is dropped while a stage is under way leaves the stage
    alone. Whatever happens afterwards, it happens as if the caller had
    waited: nobody else asks for the alias of the caller without finding the
    same path anyhow, and nobody requires the specifier who has not had it
    registered.
-/

namespace Bundleless

/-! ## Section 1: The page -/

/-- What a module comes to when it is executed depends on nothing but the module, and on which of its
    specifiers are registered. -/
def Host.SeesNames (h : Host) : Prop :=
  ∀ path source m, h.compile path source = .ok m → ∀ r r' : Registry,
    (∀ s ∈ Source.specifiers source, r'.contains s = r.contains s) → h.execute m r' = h.execute m r

theorem Site.seesNames (s : Site) : s.host.SeesNames := by
  intro path source m hCompile r r' hSame
  obtain rfl : ⟨path, source⟩ = m := by
    have hCompile : Site.compile path source = .ok m := hCompile
    unfold Site.compile at hCompile
    split at hCompile
    · cases hCompile
    · exact Except.ok.inj hCompile
  have hFind : (Source.specifiers source).find? (!r'.contains ·) =
      (Source.specifiers source).find? (!r.contains ·) := by
    revert hSame
    induction Source.specifiers source with
    | nil => exact fun _ => rfl
    | cons s specs ih =>
      intro hSame
      rw [List.find?_cons, List.find?_cons, hSame s List.mem_cons_self,
        ih fun k hMem => hSame k (List.mem_cons_of_mem _ hMem)]
  show Site.execute ⟨path, source⟩ r' = Site.execute ⟨path, source⟩ r
  unfold Site.execute
  dsimp only
  rw [hFind]

variable {h : Host} {l : Loader} {w₀ w w₁ w₂ v : World} {past more more' : List Label}
  {t c : TaskId} {specifier dir path : String}

/-! ## Section 2: Who cannot tell -/

namespace World

/-- What was registered in a run is registered at its end. -/
theorem Run.contains_of_register (hRun : Run h l.Asks w₀ past w) (hFresh : w₀.Fresh) {key : String}
    {i : Instance} (hAct : .act t (.store (.register key i)) () ∈ past) :
    w.store.registry.contains key = true := by
  rw [Registry.contains_iff, hRun.registry_get? hFresh]
  cases hLast : lastRegistered? key past with
  | none => exact absurd hAct (lastRegistered?_eq_none_iff.mp hLast t i)
  | some j => exact ⟨j, rfl⟩

/-- What has been compiled is what the page makes of the source. -/
theorem Run.compile_eq {asks : Work → Prop} (hRun : Run h asks w₀ past w) {source : String}
    {m : CompiledModule} (hAct : .act t (.host (.compile path source)) (.ok m) ∈ past) :
    h.compile path source = .ok m := by
  obtain ⟨before, after, v, v', -, -, hStep, -⟩ := hRun.exists_step hAct
  cases hStep with
  | act _ hAnswer =>
    cases hAnswer with
    | perform hPerform =>
      simp only [Op.perform, HostOp.perform, Option.some.injEq] at hPerform
      split at hPerform
      · next m' hCompile =>
        obtain ⟨hIs, -⟩ := Prod.mk.inj hPerform
        rw [hCompile, hIs]
      · cases hPerform

/-- Who asks for an alias does so first of all, and is a request for a local module. -/
theorem Run.begins_of_pathOf {asks : Work → Prop} (hRun : Run h asks w₀ past w) (hTools : w₀.OnlyTools)
    {work : Work} {key : String} {next : Option String → Load Outcome}
    (hTask : w.tasks[t]? = some ⟨work, .ask (.store (.pathOf key)) next⟩) :
    w₀.tasks.length ≤ t ∧ work.program = .ask (.store (.pathOf key)) next ∧
      ∃ s d, work.localRequest? = some (s, d) ∧ key = LocalPath.key s d := by
  obtain ⟨p₀, hCame, hOld | ⟨hNew, rfl⟩⟩ := hRun.came hTask
  · obtain - | ⟨hLoading, -⟩ := (hTools t _ hOld).came hCame
    cases hLoading
  · obtain ⟨hNothing, s, d, hRequest, hKey⟩ :=
      (hRun.obeys_of work.seeks hTask hNew).allows.looksUp
    have hBegins : work.program = .ask (.store (.pathOf key)) next := by
      rw [hNothing] at hCame
      generalize Load.ask (.store (.pathOf key)) next = p at hCame ⊢
      cases hCame
      rfl
    exact ⟨hNew, hBegins, s, d, hRequest, hKey⟩

section Following

variable (hRun : Run h l.Asks w₀ past w) (hFresh : w₀.Fresh) (hCaller : w.Caller past c specifier dir)
  (hMore : Run h l.Asks w more w₁) (hShadowed : Shadowed h l w c specifier dir more w₁ more' v)

include hRun hFresh hCaller hMore hShadowed

/-- A dependency that was loaded is registered in both worlds, or in none. -/
theorem Shadowed.contains_eq (hUnmistaken : Unmistaken l w₁ (more ++ past) specifier dir)
    {loader : Loader} {s : String} {d : Option String}
    (hSupplied : Moment.Supplied ⟨w₁, more ++ past⟩ l t loader s d) :
    v.store.registry.contains s = w₁.store.registry.contains s := by
  by_cases hEq : s = specifier
  · -- Whoever has loaded it is not the caller, and has registered it in both.
    subst hEq
    obtain ⟨k, x, hSpawn, hWork, -, hSatisfied⟩ := hSupplied
    have hNe : k ≠ c := by
      rintro rfl
      exact (hCaller.later hMore).outside t _ hSpawn
    have hHas : loader.hasLocal = true := by
      by_contra hNot
      have hName : (⟨loader, .member s d⟩ : Work).remoteName? = some s := if_neg (by simp [hNot])
      exact hUnmistaken.byName k _ hWork hName
    have hRegisters : .act k (.store (.register s x.module)) () ∈ more ++ past :=
      (hSatisfied.landed hHas hCaller.isLocal).registers
    have hRegisters' : .act k (.store (.register s x.module)) () ∈ more' ++ past := by
      rcases List.mem_append.mp hRegisters with hMem | hMem
      · exact List.mem_append_left _ (hShadowed.registers k _ hNe hMem)
      · exact List.mem_append_right _ hMem
    rw [(hRun.append hShadowed.run).contains_of_register hFresh hRegisters']
    exact ((hRun.append hMore).contains_of_register hFresh hRegisters).symm
  · exact hShadowed.same.store.contains hEq

/-- **Nobody but the caller can tell the worlds apart**, unless by the alias. -/
theorem Shadowed.blind (hTools : w₀.OnlyTools) (hSees : h.SeesNames)
    (hUnmistaken : Unmistaken l w₁ (more ++ past) specifier dir) (hNe : t ≠ c) {o : Op} {r : o.Reply}
    (hStep : Step h l.Asks w₁ (.act t o r) w₂)
    (hAlias : o = .store (.pathOf (LocalPath.key specifier dir)) →
      v.store.aliases.get? (LocalPath.key specifier dir) =
        w₁.store.aliases.get? (LocalPath.key specifier dir)) :
    o.Blind h c (LocalPath.key specifier dir) specifier w₁ v := by
  have hAll := hRun.append hMore
  have hCaller' := hCaller.later hMore
  rcases Nat.lt_or_ge t w₀.tasks.length with hOld | hNew
  · have hLoading : o.isLoading = true :=
      (hAll.tail hStep).only_of_lt (P := (·.isLoading = true)) (fun task => hTools t task) hOld
        List.mem_cons_self
    exact .of_isLoading hLoading
  · cases hStep with
    | @act w' t work o next r hTask hAnswer =>
      have hWork := workOf?_of_task hTask
      have hAllows : work.Allows (historyOf t (more ++ past)) o := (hAll.obeys hTask hNew).allows
      have hSeeks : work.Seeks (historyOf t (more ++ past)) o :=
        (hAll.obeys_of work.seeks hTask hNew).allows
      refine ⟨hAlias, ?_, ?_, ?_, ?_⟩
      · rintro rfl
        exact hUnmistaken.byName t work hWork hSeeks.looksUp
      · -- Whatever a module requires was loaded for it before.
        rintro m rfl
        have hReady : Moment.Ready ⟨w₁, more ++ past⟩ l work t m := (hAll.adequate hFresh).may hTask
        obtain ⟨path, source, d, -, hCompile, hSupplied⟩ := hReady
        refine hSees path source m (hAll.compile_eq hCompile) _ _ fun s hSpec => ?_
        exact hShadowed.contains_eq hRun hFresh hCaller hMore hUnmistaken (hSupplied s hSpec)
      · rintro config app rfl
        exact hAllows
      · -- Only stages, and work that was started by others, are waited for.
        intro k wanted hWaits hIs
        subst hIs
        cases hWaits with
        | await => exact hCaller'.not_joined hAll hFresh hAllows
        | allOk hMem =>
          obtain ⟨new, hSpawn⟩ := hAllows k hMem
          exact hCaller'.outside t new (mem_historyOf.mp hSpawn)
        | allDone hMem =>
          obtain ⟨l', name, d, hSpawn⟩ := hAllows k hMem
          exact hCaller'.outside t _ (mem_historyOf.mp hSpawn)

/-- **Each step is followed.** -/
theorem Shadowed.step (hTools : w₀.OnlyTools) (hSees : h.SeesNames) {step : Label}
    (hStep : Step h l.Asks w₁ step w₂)
    (hUnmistaken : Unmistaken l w₂ (step :: (more ++ past)) specifier dir) :
    ∃ more'' v', Shadowed h l w c specifier dir (step :: more) w₂ more'' v' := by
  have hAll := hRun.append hMore
  have hBefore := hUnmistaken.of_step hStep
  have hLater : Moment.Later ⟨w₁, more ++ past⟩ ⟨w₂, [step] ++ (more ++ past)⟩ :=
    hAll.later hFresh (.tail .refl hStep)
  cases hStep with
  | start hAsks => exact ⟨_, _, hShadowed.start hAsks⟩
  | @act w' t work o next r hTask hAnswer =>
    have hStep : Step h l.Asks w₁ (.act t o r) (w'.setProgram t (next r)) := .act hTask hAnswer
    by_cases hEq : t = c
    · -- The caller goes on in the first world alone.
      subst hEq
      obtain - | ⟨hLands, -⟩ := (hCaller.later hMore).lands hAll hFresh hTask
      refine ⟨_, _, hShadowed.caller hAnswer hLands fun path hIs => ?_⟩
      subst hIs
      exact hUnmistaken.missing hAll hFresh hStep hShadowed.same.store
    · obtain ⟨p', hTask', hBehind⟩ := hShadowed.follows t work _ hEq hTask
      cases hBehind with
      | look hCached =>
        obtain ⟨hIs, rfl⟩ := hAnswer.store
        obtain rfl := hIs.trans hCached
        exact ⟨_, _, hShadowed.look hTask'⟩
      | same =>
        by_cases hHit : o = .store (.pathOf (LocalPath.key specifier dir)) ∧
            v.store.aliases.get? (LocalPath.key specifier dir) ≠
              w₁.store.aliases.get? (LocalPath.key specifier dir)
        · -- Its alias is remembered in the first world only, so the other one goes the longer way.
          obtain ⟨rfl, hOther⟩ := hHit
          obtain ⟨hIs, rfl⟩ := hAnswer.store
          have hIs : r = w₁.store.aliases.get? (LocalPath.key specifier dir) := hIs
          have hNone := hShadowed.same.store.missing.resolve_right hOther
          obtain ⟨path, hAlias⟩ : ∃ path,
              w₁.store.aliases.get? (LocalPath.key specifier dir) = some path := by
            rw [← Option.isSome_iff_exists, ← Option.ne_none_iff_isSome]
            exact fun hGone => hOther (hNone.trans hGone.symm)
          obtain ⟨hNew, hProgram, s, d, hRequest, hKey⟩ := hAll.begins_of_pathOf hTools hTask
          obtain ⟨basePath, i, hResolve, hResolved, hCached⟩ := hBefore.of_alias hAll hFresh hAlias
          have hWork := workOf?_of_task hTask
          rw [← hBefore.means t work s d hWork hRequest hKey.symm,
            ← (hAll.serves hFresh hNew hWork).1] at hResolve
          rw [hIs, hAlias]
          rw [← hProgram] at hTask'
          exact hShadowed.hit hEq hTask' hProgram hRequest hKey hNone hAlias hResolve hResolved
            hCached
        · have hBlind := hShadowed.blind hRun hFresh hCaller hMore hTools hSees hBefore hEq hStep
            fun hIs => by_contra fun hOther => hHit ⟨hIs, hOther⟩
          obtain ⟨v', hBoth⟩ := hShadowed.both hEq hTask' hAnswer hBlind hLater.cached
          exact ⟨_, v', hBoth⟩

end Following

/-- **A run is followed to its end.** -/
theorem Run.shadowed (hRun : Run h l.Asks w₀ past w) (hFresh : w₀.Fresh) (hTools : w₀.OnlyTools)
    (hSees : h.SeesNames) (hCaller : w.Caller past c specifier dir) (hMore : Run h l.Asks w more w₁)
    (hUnmistaken : Unmistaken l w₁ (more ++ past) specifier dir) :
    ∃ more' v, Shadowed h l w c specifier dir more w₁ more' v := by
  induction hMore with
  | refl => exact ⟨[], w, .refl h l w c specifier dir⟩
  | tail hMore hStep ih =>
    obtain ⟨more', v, hShadowed⟩ := ih (hUnmistaken.of_step hStep)
    exact hShadowed.step hRun hFresh hCaller hMore hTools hSees hStep hUnmistaken

/-! ## Section 3: Loads outlive their callers -/

/-- **A load outlives its caller.** Let somebody from outside have asked for a local module and joined
    the first stage, whatever else is under way. To each run from there on in which the caller waits
    there is one in which it makes no step any more, with the same answers from outside: at its end
    the same has been fetched, compiled and executed in the same order, and the tables and the
    registry are the same, but that the alias may be missing and that under the specifier there may
    be another module or none. And each run without the caller, up to where all others are done, is
    one that belongs to a run in which the caller comes to its end. This holds as long as the key of
    the caller is not mistaken for another one. -/
theorem Run.outlives_caller (hRun : Run h l.Asks w₀ past w) (hFresh : w₀.Fresh)
    (hTools : w₀.OnlyTools) (hSees : h.SeesNames) (hCaller : w.Caller past c specifier dir) :
    (∀ more w₁, Run h l.Asks w more w₁ → Unmistaken l w₁ (more ++ past) specifier dir →
      ∃ more' v, Without h l w c specifier dir more w₁ more' v) ∧
    ∀ more' v, Run h l.Asks w more' v → (∀ o r, .act c o r ∉ more') →
      Unmistaken l v (more' ++ past) specifier dir →
      (∀ t, t ≠ c → t < v.tasks.length → (v.outcome? t).isSome = true) →
      ∃ more w₁, Run h l.Asks w more w₁ ∧ (w₁.outcome? c).isSome = true ∧
        Without h l w c specifier dir more w₁ more' v := by
  constructor
  · intro more w₁ hMore hUnmistaken
    obtain ⟨more', v, hShadowed⟩ :=
      hRun.shadowed hFresh hTools hSees hCaller hMore hUnmistaken
    exact ⟨more', v, hShadowed.toWithout⟩
  · intro more' v hDropped hNone hUnmistaken hOthers
    -- The caller goes on when all others have come to their end.
    obtain ⟨steps, w₁, hEnd, hDone, hInside, hSame⟩ :=
      (hCaller.later hDropped).ends (hRun.append hDropped) hFresh hUnmistaken hOthers
    refine ⟨steps ++ more', w₁, hDropped.append hEnd, hDone, hDropped, hNone, ?_, hSame⟩
    rw [List.filter_append, hInside, List.nil_append]

end World

/-! ### Replays with a caller -/

namespace Label

/-- The task that makes the step. -/
def actor? : Label → Option TaskId
  | .act t _ _ => some t
  | .start _ => none

/-- Somebody starts a task. -/
def isSpawn : Label → Bool
  | .act _ (.spawn _) _ => true
  | _ => false

/-- Somebody joins the first stage. -/
def isJoin : Label → Bool
  | .act _ (.shareResolve ..) _ => true
  | _ => false

/-- Somebody remembers a path. -/
def isKeep : Label → Bool
  | .act _ (.store (.setAlias ..)) _ => true
  | _ => false

/-- What is noted by the step, if anything is, is this path. -/
def notesOnly (path : String) : Label → Bool
  | .act _ (.store (.setResolved _ p)) _ => p == path
  | _ => true

end Label

namespace World

/-- Who has joined the first stage while nobody has started anything is a caller. -/
theorem Caller.of_replay {work : Work} (hWork : w.workOf? c = some work)
    (hRequest : work.localRequest? = some (specifier, dir))
    (hLocal : LocalPath.isLocal specifier = true) (hNone : ∀ step ∈ past, step.isSpawn = false)
    (hJoins : ∃ step ∈ past, step.actor? = some c ∧ step.isJoin = true) :
    w.Caller past c specifier dir where
  request := ⟨work, hWork, hRequest⟩
  isLocal := hLocal
  outside t new hAct := by
    have hNot := hNone _ hAct
    cases hNot
  joined := by
    obtain ⟨step, hMem, hActor, hJoin⟩ := hJoins
    unfold Label.isJoin at hJoin
    split at hJoin
    · next t l basePath k =>
      obtain rfl : t = c := Option.some.inj hActor
      exact ⟨l, basePath, k, hMem⟩
    · cases hJoin

/-- Whoever asks for something asks for this specifier seen from this directory. -/
abbrev AsksOnlyFor (w : World) (specifier dir : String) : Prop :=
  ∀ task ∈ w.tasks, task.work.remoteName? = none ∧
    (task.work.localRequest? = none ∨ task.work.localRequest? = some (specifier, dir))

/-- Where all requests are the same and only one path is noted, nothing is mistaken. -/
theorem Unmistaken.of_replay (hRequests : w.AsksOnlyFor specifier dir)
    (hNotes : ∀ step ∈ past, step.notesOnly path = true) : Unmistaken l w past specifier dir where
  means t work s d hWork hRequest _ := by
    obtain ⟨task, hTask, rfl⟩ := Option.map_eq_some_iff.mp hWork
    rcases (hRequests task (List.mem_of_getElem? hTask)).2 with hNone | hSame
    · simp [hNone] at hRequest
    · obtain ⟨rfl, rfl⟩ := Prod.mk.inj (Option.some.inj (hSame.symm.trans hRequest))
      rfl
  finds basePath t k p q _ hFirst hThen := by
    have hIs : p = path := of_decide_eq_true (hNotes _ hFirst)
    have hAlso : q = path := of_decide_eq_true (hNotes _ hThen)
    rw [hIs, hAlso]
  byName t work hWork hName := by
    obtain ⟨task, hTask, rfl⟩ := Option.map_eq_some_iff.mp hWork
    simp [(hRequests task (List.mem_of_getElem? hTask)).1] at hName

/-- A request that joins the first stage, and another one after it. If the first one waits, the second
    one hits its alias; if it is dropped, the second one finds the path by the base path. -/
theorem Run.outlives_caller_again : ∃ past w,
    Run (Site.host {}) Replay.loader.Asks {} past w ∧ Fresh {} ∧ OnlyTools {} ∧
    (Site.host {}).SeesNames ∧ w.Caller past 0 "./dep.ts" "src" ∧
    (∃ more w₁, Run (Site.host {}) Replay.loader.Asks w more w₁ ∧
      Unmistaken Replay.loader w₁ (more ++ past) "./dep.ts" "src" ∧
      (w₁.outcome? 0).isSome = true ∧ ∃ more' v,
        Without (Site.host {}) Replay.loader w 0 "./dep.ts" "src" more w₁ more' v) ∧
    ∃ more' v, Run (Site.host {}) Replay.loader.Asks w more' v ∧ (∀ o r, .act 0 o r ∉ more') ∧
      Unmistaken Replay.loader v (more' ++ past) "./dep.ts" "src" ∧
      (∀ t, t ≠ 0 → t < v.tasks.length → (v.outcome? t).isSome = true) ∧
      ∃ more w₁, Run (Site.host {}) Replay.loader.Asks w more w₁ ∧
        (w₁.outcome? 0).isSome = true ∧
        Without (Site.host {}) Replay.loader w 0 "./dep.ts" "src" more w₁ more' v := by
  obtain ⟨past, w, hRun, hAt⟩ := exists_run (Site.host {}) Replay.loader {}
    [.ask (.load "./dep.ts" "src"), .go 0 3]
    (fun x => x.2.workOf? 0 = some ⟨Replay.loader, .load "./dep.ts" "src"⟩ ∧
      (∀ step ∈ x.1, step.isSpawn = false) ∧
      (∃ step ∈ x.1, step.actor? = some 0 ∧ step.isJoin = true) ∧
      (replay (Site.host {}) Replay.loader [.go 1 1, .reply 1 (Replay.found ""), .go 1 2, .go 2 6,
          .go 1 2, .go 0 3, .ask (.load "./dep.ts" "src"), .go 3 3] x.2).any (fun y =>
        y.2.AsksOnlyFor "./dep.ts" "src" ∧
        (∀ step ∈ y.1 ++ x.1, step.notesOnly "src/dep.ts" = true) ∧
        (y.2.outcome? 0).isSome = true) ∧
      (replay (Site.host {}) Replay.loader [.go 1 1, .reply 1 (Replay.found ""), .go 1 2, .go 2 6,
          .go 1 2, .ask (.load "./dep.ts" "src"), .go 3 5] x.2).any (fun y =>
        y.2.AsksOnlyFor "./dep.ts" "src" ∧
        (∀ step ∈ y.1 ++ x.1, step.notesOnly "src/dep.ts" = true) ∧
        (∀ step ∈ y.1, step.actor? ≠ some 0) ∧
        ∀ t < y.2.tasks.length, t ≠ 0 → (y.2.outcome? t).isSome = true))
    (by decide +kernel)
  obtain ⟨hWork, hNone, hJoins, hWaits, hDrops⟩ := of_decide_eq_true hAt
  have hCaller : w.Caller past 0 "./dep.ts" "src" :=
    .of_replay hWork rfl (by decide +kernel) hNone hJoins
  obtain ⟨hWaiting, hDropped⟩ :=
    hRun.outlives_caller fresh_empty onlyTools_empty (Site.seesNames {}) hCaller
  refine ⟨past, w, hRun, fresh_empty, onlyTools_empty, Site.seesNames {}, hCaller, ?_, ?_⟩
  · obtain ⟨⟨more, w₁⟩, hReplay, hIs⟩ := (Option.any_eq_true ..).mp hWaits
    obtain ⟨hRequests, hNotes, hDone⟩ := of_decide_eq_true hIs
    have hMore := run_of_replay hReplay
    have hUnmistaken := Unmistaken.of_replay (l := Replay.loader) hRequests hNotes
    exact ⟨more, w₁, hMore, hUnmistaken, hDone, hWaiting more w₁ hMore hUnmistaken⟩
  · obtain ⟨⟨more', v⟩, hReplay, hIs⟩ := (Option.any_eq_true ..).mp hDrops
    obtain ⟨hRequests, hNotes, hOthers, hDone⟩ := of_decide_eq_true hIs
    have hMore := run_of_replay hReplay
    have hUnmistaken := Unmistaken.of_replay (l := Replay.loader) hRequests hNotes
    have hNot : ∀ o r, .act 0 o r ∉ more' := fun o r hAct => hOthers _ hAct rfl
    have hAll : ∀ t, t ≠ 0 → t < v.tasks.length → (v.outcome? t).isSome = true :=
      fun t hNe hLt => hDone t hLt hNe
    exact ⟨more', v, hMore, hNot, hUnmistaken, hAll, hDropped more' v hMore hNot hUnmistaken hAll⟩

end World

/-- Once all tasks are done it makes no difference whether a caller has waited, but for the alias and
    for what is registered under the specifier. -/
def Loader.OutlivesCallers (h : Host) (l : Loader) : Prop :=
  h.SeesNames → ∀ past w c specifier dir, World.Run h l.Asks {} past w →
    w.Caller past c specifier dir → ∀ more w₁, World.Run h l.Asks w more w₁ →
      (∀ t, t < w₁.tasks.length → (w₁.outcome? t).isSome = true) →
      ∃ more' v, World.Without h l w c specifier dir more w₁ more' v

/-- **Below the root of a site it makes one.** A caller asks for `./theme` from `src`, and somebody
    else from `/src`. If the caller waits, the other one hits its alias and gets the file that the
    caller has asked for; without the alias it cannot. -/
theorem Loader.not_outlivesCallers :
    ¬ (Replay.loaderAt ["app", "index.html"]).OutlivesCallers (Site.host {}) := by
  generalize hLoader : Replay.loaderAt ["app", "index.html"] = l
  intro hOutlives
  obtain ⟨past, w, hRun, hAt⟩ := World.exists_run (Site.host {}) l {}
    [.ask (.load "./theme" "src"), .go 0 3, .go 1 1, .reply 1 (Replay.found ""), .go 1 2, .go 2 6,
      .go 1 2, .ask (.load "./theme" "/src")]
    (fun x => x.2.workOf? 0 = some ⟨l, .load "./theme" "src"⟩ ∧
      (∀ step ∈ x.1, step.isSpawn = false) ∧
      (∃ step ∈ x.1, step.actor? = some 0 ∧ step.isJoin = true) ∧
      (∀ step ∈ x.1, step.isKeep = false) ∧
      (World.replay (Site.host {}) l [.go 0 3, .go 3 3] x.2).any fun y =>
        (∀ t < y.2.tasks.length, (y.2.outcome? t).isSome = true) ∧
        (y.2.loadedBy? 3).map (·.key) = some "app/src/theme" ∧
        y.2.workOf? 3 = some ⟨l, .load "./theme" "/src"⟩ ∧
        ∀ t < y.2.tasks.length, t ≠ 0 → t ≠ 3 →
          (y.2.workOf? t).bind (·.localRequest?) = none)
    (by subst hLoader; decide +kernel)
  obtain ⟨hWork, hNone, hJoins, hUnkept, hWaits⟩ := of_decide_eq_true hAt
  obtain ⟨⟨more, w₁⟩, hReplay, hIs⟩ := (Option.any_eq_true ..).mp hWaits
  obtain ⟨hDone, hKey, hOther, hRequests⟩ := of_decide_eq_true hIs
  have hCaller : w.Caller past 0 "./theme" "src" :=
    .of_replay hWork rfl (by decide +kernel) hNone hJoins
  obtain ⟨more', v, hWithout⟩ := hOutlives (Site.seesNames {}) past w 0 "./theme" "src" hRun hCaller
    more w₁ (World.run_of_replay hReplay) hDone
  -- Without the caller the other one has come to the same, so it has found the same path.
  obtain ⟨x, hLoaded, hPath⟩ := Option.map_eq_some_iff.mp hKey
  have hOutcome : v.outcome? 3 = some (.ok (some x)) :=
    (hWithout.same.outcomes 3 (by decide)).trans (World.loadedBy?_eq_some_iff.mp hLoaded)
  have hDropped := hRun.append hWithout.run
  have hFresh := World.fresh_empty
  have hLanded := (hDropped.adequate hFresh).holds.landed (m := ⟨v, more' ++ past⟩)
    ((hWithout.same.works 3).trans hOther) rfl hOutcome
  obtain ⟨k, hKept⟩ := hDropped.kept_of_found hFresh hLanded.found
  obtain ⟨work, s, d, basePath, j, hKnown, hRequest, hSame, hResolve, hNoted⟩ :=
    hDropped.noted_of_remembered hFresh hKept
  have hFinds := hDropped.finds_of_noted hFresh hNoted
  rw [hWithout.same.works k] at hKnown
  by_cases hThree : k = 3
  · -- The other one itself means another base path.
    subst hThree
    obtain rfl := Option.some.inj (hOther.symm.trans hKnown)
    obtain ⟨rfl, rfl⟩ := Prod.mk.inj (Option.some.inj hRequest)
    have hMeans : (LocalPath.resolve "./theme" "/src" l.page).toOption = some "src/theme" := by
      subst hLoader
      decide +kernel
    obtain rfl := Except.ok.inj (hResolve.symm.trans (eq_ok_of_toOption hMeans))
    have hCandidate : "app/src/theme" ∈ LocalPath.candidates l.extensions "src/theme" :=
      hPath ▸ hFinds.1
    subst hLoader
    exact absurd hCandidate (by decide +kernel)
  · by_cases hZero : k = 0
    · -- The caller has not come so far.
      subst hZero
      rcases List.mem_append.mp hKept with hMem | hMem
      · exact hWithout.dropped _ _ hMem
      · cases hUnkept _ hMem
    · have hNot := hRequests k (World.lt_of_workOf? hKnown) hZero hThree
      rw [hKnown] at hNot
      cases hRequest.symm.trans hNot

end Bundleless
