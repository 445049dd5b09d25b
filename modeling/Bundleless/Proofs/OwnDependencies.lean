import Bundleless.Proofs.LocalRuns
import Bundleless.Proofs.Registered
import Bundleless.Proofs.Replay
import Bundleless.World.Site

/-! # What a module requires while it runs

    Before a module runs, each of its specifiers has been loaded for it. While
    it runs it finds them in the registry, which has one place for each text.
    Another module may import another file under the same text, and so the
    module finds its own only if nobody has taken the place since.
-/

namespace Bundleless

variable {l : Loader} {h : Host} {w₀ w w' : World} {past : List Label}

/-! ## Section 1: The registry and the past -/

/-- No work that can be asked for clears the registry. -/
theorem World.Run.not_clear (hRun : World.Run h l.Asks w₀ past w) (hFresh : w₀.Fresh) (t : TaskId) :
    .act t (.store .clear) () ∉ past := by
  induction hRun with
  | refl => exact List.not_mem_nil
  | @tail past w w' step hRun hStep ih =>
    intro hMem
    rcases List.mem_cons.mp hMem with rfl | hMem
    · cases hStep with
      | @act w' t work o next r hTask hAnswer =>
        have hMay : LocalMay l work t (.store .clear) ⟨w, past⟩ := (hRun.adequate hFresh).may hTask
        exact hMay
    · exact ih hMem

/-- **The registry has what was registered last**, or what it had from the beginning. -/
theorem World.Run.registry_get? (hRun : World.Run h l.Asks w₀ past w) (hFresh : w₀.Fresh)
    (key : String) : w.store.registry.get? key =
      (lastRegistered? key past).or (w₀.store.registry.get? key) :=
  hRun.registry_get?_of_kept (hRun.not_clear hFresh) key

/-! ## Section 2: What is found -/

/-- The task is about to hand the local module at a path to the page. -/
def World.AboutToRun (w : World) (t : TaskId) (loader : Loader) (path source : String) : Prop :=
  ∃ compiled next,
    w.tasks[t]? = some ⟨⟨loader, .execute path source⟩, .ask (.host (.execute compiled)) next⟩

theorem World.AboutToRun.of_nextOp? {t : TaskId} {loader : Loader} {path source : String}
    {compiled : CompiledModule} (hWork : w.workOf? t = some ⟨loader, .execute path source⟩)
    (hNext : w.nextOp? t = some (.host (.execute compiled))) :
    w.AboutToRun t loader path source := by
  obtain ⟨work, next, hTask⟩ := World.exists_task_of_nextOp? hNext
  obtain rfl := Option.some.inj ((World.workOf?_of_task hTask).symm.trans hWork)
  exact ⟨compiled, next, hTask⟩

/-- Whatever local module is about to run requires what was loaded for it. -/
def World.RequiresOwn (h : Host) (past : List Label) (w : World) : Prop :=
  ∀ t loader path source s k x, w.AboutToRun t loader path source → loader.hasLocal = true →
    s ∈ Source.specifiers source → LocalPath.isLocal s = true →
    Moment.LoadedFor ⟨w, past⟩ t loader s (LocalPath.baseDirOf path) k x →
    (Load.require s).run.drive h w = (.done (.ok x.module), w)

/-- For every local specifier of a module that is about to run a task has landed. -/
theorem World.Run.exists_landed (hRun : World.Run h l.Asks w₀ past w) (hFresh : w₀.Fresh)
    {t : TaskId} {loader : Loader} {path source s : String}
    (hAbout : w.AboutToRun t loader path source) (hHas : loader.hasLocal = true)
    (hSpec : s ∈ Source.specifiers source) (hLocal : LocalPath.isLocal s = true) :
    ∃ k x, Moment.LoadedFor ⟨w, past⟩ t loader s (LocalPath.baseDirOf path) k x ∧
      Moment.Landed ⟨w, past⟩ l k s (LocalPath.baseDirOf path) x.key x.module := by
  obtain ⟨compiled, next, hTask⟩ := hAbout
  have hReady : Moment.Ready ⟨w, past⟩ l _ t compiled := (hRun.adequate hFresh).may hTask
  obtain ⟨_, _, _, hRuns, -, hSupplied⟩ := hReady
  cases hRuns
  obtain ⟨k, x, hSpawn, hWork, hOutcome, hSatisfied⟩ := hSupplied s hSpec
  exact ⟨k, x, ⟨hSpawn, hWork, hOutcome⟩, hSatisfied.landed hHas hLocal⟩

/-- **A module requires its own dependency just when nobody has taken its place.** For every local
    specifier of a module that is about to run, a task has loaded what the specifier means from the
    directory of the module, and has registered it under the specifier. The module gets it if and
    only if what was registered last under the specifier since then, if anything was, is the
    same. -/
theorem World.Run.require_own_iff (hRun : World.Run h l.Asks w₀ past w) (hFresh : w₀.Fresh)
    {t : TaskId} {loader : Loader} {path source s : String}
    (hAbout : w.AboutToRun t loader path source) (hHas : loader.hasLocal = true)
    (hSpec : s ∈ Source.specifiers source) (hLocal : LocalPath.isLocal s = true) :
    ∃ k x after before,
      Moment.LoadedFor ⟨w, past⟩ t loader s (LocalPath.baseDirOf path) k x ∧
      w.store.cache.get? x.key = some x.module ∧
      past = after ++ .act k (.store (.register s x.module)) () :: before ∧
      ((Load.require s).run.drive h w = (.done (.ok x.module), w) ↔
        ∀ i, lastRegistered? s after = some i → i = x.module) := by
  obtain ⟨k, x, hLoaded, hLanded⟩ := hRun.exists_landed hFresh hAbout hHas hSpec hLocal
  -- The registration by which the module landed parts the past.
  obtain ⟨after, before, hPast⟩ := List.append_of_mem hLanded.registers
  have hPast : past = after ++ .act k (.store (.register s x.module)) () :: before := hPast
  refine ⟨k, x, after, before, hLoaded, hLanded.cached, hPast, ?_⟩
  have hGet : w.store.registry.get? s = some ((lastRegistered? s after).getD x.module) := by
    rw [hRun.registry_get? hFresh, hPast, lastRegistered?_append_register]
    rfl
  rw [Load.drive_require_iff, hGet]
  cases lastRegistered? s after with
  | none => simp
  | some i => simp

/-- A module about to run, whose place nobody has taken. -/
theorem World.Run.require_own_iff_nested : ∃ past w,
    World.Run (Site.host {}) Replay.loader.Asks {} past w ∧ World.Fresh {} ∧
    w.AboutToRun 2 Replay.loader "src/main.ts" Replay.importing ∧ Replay.loader.hasLocal = true ∧
    "./dep.ts" ∈ Source.specifiers Replay.importing ∧ LocalPath.isLocal "./dep.ts" = true ∧
    ∃ k x after before,
      Moment.LoadedFor ⟨w, past⟩ 2 Replay.loader "./dep.ts" (LocalPath.baseDirOf "src/main.ts")
        k x ∧
      w.store.cache.get? x.key = some x.module ∧
      past = after ++ .act k (.store (.register "./dep.ts" x.module)) () :: before ∧
      ((Load.require "./dep.ts").run.drive (Site.host {}) w = (.done (.ok x.module), w) ↔
        ∀ i, lastRegistered? "./dep.ts" after = some i → i = x.module) := by
  obtain ⟨past, w, hRun, hFound⟩ := World.exists_run (Site.host {}) Replay.loader {} Replay.upToRun
    (fun x => x.2.workOf? 2 = some ⟨Replay.loader, .execute "src/main.ts" Replay.importing⟩ ∧
      x.2.nextOp? 2 = some (.host (.execute ⟨"src/main.ts", Replay.importing⟩)))
    (by decide +kernel)
  obtain ⟨hWork, hNext⟩ := of_decide_eq_true hFound
  have hAbout : w.AboutToRun 2 Replay.loader "src/main.ts" Replay.importing :=
    .of_nextOp? hWork hNext
  have hSpec : "./dep.ts" ∈ Source.specifiers Replay.importing := by decide +kernel
  have hLocal : LocalPath.isLocal "./dep.ts" = true := by decide +kernel
  exact ⟨past, w, hRun, World.fresh_empty, hAbout, rfl, hSpec, hLocal,
    hRun.require_own_iff World.fresh_empty hAbout rfl hSpec hLocal⟩

/-- `src/a/main.ts` imports `./utils.ts` and `./sub/x.ts`, which imports another `./utils.ts`. When
    the outer one is about to run it would get that of the inner one. -/
theorem World.not_requires_own : ¬ ∀ past w,
    World.Run (Site.host {}) Replay.loader.Asks {} past w → w.RequiresOwn (Site.host {}) past := by
  intro hAll
  obtain ⟨past, w, hRun, hFound⟩ := World.exists_run (Site.host {}) Replay.loader {}
    [.ask (.load "./main.ts" "src/a"), .go 0 3, .go 1 1,
      .reply 1 (Replay.found "import \"./utils.ts\"; import \"./sub/x.ts\";"), .go 1 2, .go 2 2,
      .go 3 3, .go 5 1, .reply 5 (Replay.found ""), .go 5 2, .go 6 6, .go 5 2, .go 3 3,
      .go 4 3, .go 7 1, .reply 7 (Replay.found "import \"./utils.ts\";"), .go 7 2, .go 8 1,
      .go 9 3, .go 10 1, .reply 10 (Replay.found ""), .go 10 2, .go 11 6, .go 10 2, .go 9 3,
      .go 8 7, .go 7 2, .go 4 3, .go 2 2]
    (fun x => x.2.workOf? 2 = some ⟨Replay.loader, .execute "src/a/main.ts"
        "import \"./utils.ts\"; import \"./sub/x.ts\";"⟩ ∧
      x.2.nextOp? 2 = some (.host (.execute ⟨"src/a/main.ts",
        "import \"./utils.ts\"; import \"./sub/x.ts\";"⟩)) ∧
      ∀ k < x.2.tasks.length,
        x.2.workOf? k = some ⟨Replay.loader, .member "./utils.ts" (some "/src/a")⟩ →
        (x.2.loadedBy? k).map (·.module) ≠ x.2.store.registry.get? "./utils.ts")
    (by decide +kernel)
  -- Task 2 executes the outer module. What it has loaded under the specifier is no longer there.
  obtain ⟨hWork, hNext, hOther⟩ := of_decide_eq_true hFound
  have hAbout : w.AboutToRun 2 Replay.loader "src/a/main.ts" _ := .of_nextOp? hWork hNext
  have hSpec : "./utils.ts" ∈ Source.specifiers
      "import \"./utils.ts\"; import \"./sub/x.ts\";" := by decide +kernel
  have hLocal : LocalPath.isLocal "./utils.ts" = true := by decide +kernel
  obtain ⟨k, x, hLoaded, -⟩ := hRun.exists_landed World.fresh_empty hAbout rfl hSpec hLocal
  have hRequires := hAll past w hRun 2 Replay.loader _ _ _ k x hAbout rfl hSpec hLocal hLoaded
  have hDir : LocalPath.baseDirOf "src/a/main.ts" = "/src/a" := by decide +kernel
  have hMember : w.workOf? k = some ⟨Replay.loader, .member "./utils.ts" (some "/src/a")⟩ :=
    hDir ▸ hLoaded.work
  have hModule : w.loadedBy? k = some x := World.loadedBy?_eq_some_iff.mpr hLoaded.outcome
  refine hOther k (World.lt_of_workOf? hMember) hMember ?_
  rw [hModule, Load.drive_require_iff.mp hRequires]
  rfl

end Bundleless
