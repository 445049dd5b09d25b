import Bundleless.Proofs.LocalPrograms
import Bundleless.Proofs.Solo
import Bundleless.World.Schedule

/-! # Runs with local modules

    A page starts without local modules; only tools may have been asked for,
    and what its registry and its globals hold does not matter. From there on
    every run keeps the discipline of local modules, and so what holds for
    good at one moment of a run holds at all later ones.
-/

namespace Bundleless

/-- No local module has been looked for. Tools may be under way, or have been loaded. -/
structure World.Fresh (w : World) : Prop where
  tools : ∀ (t : TaskId) (task : Task), w.tasks[t]? = some task →
    (∃ d, task.work.job = .tool d) ∧ task.program.Free
  aliases : w.store.aliases = []
  resolved : w.store.resolved = []
  cache : w.store.cache = []
  resolving : w.store.resolving = []
  executing : w.store.executing = []

variable {l : Loader} {h : Host} {w₀ w w' : World} {past more : List Label}

/-- Before anything has happened the tables are empty. -/
theorem LocalInv.of_fresh (hFresh : w₀.Fresh) : LocalInv l ⟨w₀, []⟩ where
  aliases key path hGet := by simp [hFresh.aliases] at hGet
  resolved basePath path hGet := by simp [hFresh.resolved] at hGet
  cache path i hCached := by simp [Moment.Cached, hFresh.cache] at hCached
  resolving basePath t hGet := by simp [hFresh.resolving] at hGet
  executing path t hGet := by simp [hFresh.executing] at hGet
  again j k path _ hFirst := by
    obtain ⟨_, _, hWork⟩ := hFirst
    obtain ⟨task, hTask, hIs⟩ := Option.map_eq_some_iff.mp hWork
    obtain ⟨⟨d, hTool⟩, -⟩ := hFresh.tools j task hTask
    simp [hIs] at hTool

/-- **Every run keeps the discipline of local modules.** -/
theorem World.Run.adequate (hRun : World.Run h l.Asks w₀ past w) (hFresh : w₀.Fresh) :
    l.discipline.Adequate h ⟨w, past⟩ := by
  refine .run (l.lawful h) (Discipline.adequate_of_safe (.of_fresh hFresh) ?_) hRun
  rintro t ⟨⟨loader, job⟩, p⟩ hTask
  -- Tools that are under way leave local modules alone.
  obtain ⟨⟨d, rfl⟩, hFree⟩ := hFresh.tools t _ hTask
  have hLive : LocalLive ⟨loader, .tool d⟩ t ⟨w₀, []⟩ := ⟨World.workOf?_of_task hTask, trivial⟩
  exact (hFree.adds (K := Fact.top) ⟨w₀, []⟩ trivial hLive).imp fun _ _ _ => trivial

theorem World.fresh_empty : World.Fresh {} := by
  refine ⟨fun t task hTask => ?_, rfl, rfl, rfl, rfl, rfl⟩
  simp at hTask

/-- A step takes nothing back that holds for good. -/
theorem World.Step.later {m : Moment} {step : Label}
    (hStep : World.Step h l.Asks m.toWorld step w) (hAdequate : l.discipline.Adequate h m) :
    Moment.Later m ⟨w, step :: m.past⟩ := by
  cases hStep with
  | @act w t work o next r hTask hAnswer =>
    obtain ⟨works, hStarts⟩ := hAnswer.starts
    -- First the operation, then the program of the task that made it.
    have hOpen : (m.act t o r w).outcome? t = none :=
      World.outcome?_of_ask (hStarts.getElem?_of_task hTask)
    exact (later_act (hAdequate.may hTask) hAnswer).trans (Moment.later_goOn (next r) hOpen)
  | @start work hAsks =>
    exact Moment.later_of_starts (fun _ => List.mem_cons_of_mem _) (World.starts_start work)
      (fun _ _ hC => hC) fun _ hKey => hKey

/-- **What holds for good at a moment holds at every later moment of the run.** -/
theorem World.Run.later (hRun : World.Run h l.Asks w₀ past w) (hFresh : w₀.Fresh)
    (hMore : World.Run h l.Asks w more w') : Moment.Later ⟨w, past⟩ ⟨w', more ++ past⟩ := by
  induction hMore with
  | refl => exact .refl _
  | @tail more w₁ w₂ step hMore hStep ih =>
    have hAdequate := (hRun.append hMore).adequate hFresh
    exact ih.trans (World.Step.later (m := ⟨w₁, more ++ past⟩) hStep hAdequate)

/-- Work that is not to load a tool was begun in the run. -/
theorem World.Run.le_of_work {asks : Work → Prop} (hRun : World.Run h asks w₀ past w)
    (hFresh : w₀.Fresh) {t : TaskId} {work : Work} (hWork : w.workOf? t = some work)
    (hNot : ∀ d, work.job ≠ .tool d) : w₀.tasks.length ≤ t := by
  obtain ⟨⟨work, p⟩, hTask, rfl⟩ := Option.map_eq_some_iff.mp hWork
  obtain ⟨p₀, -, hOld | ⟨hNew, -⟩⟩ := hRun.came hTask
  · obtain ⟨⟨d, hTool⟩, -⟩ := hFresh.tools t _ hOld
    exact absurd hTool (hNot d)
  · exact hNew

/-- Whoever is started in a run works on the page that the run is about. -/
theorem World.Run.serves (hRun : World.Run h l.Asks w₀ past w) (hFresh : w₀.Fresh) {t : TaskId}
    {work : Work} (hNew : w₀.tasks.length ≤ t) (hWork : w.workOf? t = some work) :
    l.Serves work.loader := by
  induction hRun with
  | refl => exact absurd (World.lt_of_workOf? hWork) (Nat.not_lt.mpr hNew)
  | @tail past w w' step hRun hStep ih =>
    rcases Nat.lt_or_ge t w.tasks.length with hLt | hGe
    · -- The task was there before.
      obtain ⟨work', hOld⟩ : ∃ work', w.workOf? t = some work' :=
        ⟨_, World.workOf?_of_task (List.getElem?_eq_getElem hLt)⟩
      obtain rfl : work' = work := Option.some.inj ((hStep.workOf? hOld).symm.trans hWork)
      exact ih hOld
    · have hAdequate := hRun.adequate hFresh
      cases hStep with
      | act hTask hAnswer =>
        exact ((keeps_act _ hAdequate.holds hTask (hAdequate.may hTask) hAnswer).pre t work hGe
          hWork).serves
      | start hAsked => exact ((keeps_begin hAdequate.holds hAsked).pre t work hGe hWork).serves

/-- Whoever has loaded the local module that was asked for has landed. -/
theorem Discipline.Holds.landed {m : Moment} {t : TaskId} {work : Work} {specifier dir : String}
    {x : Loaded} (hHolds : l.discipline.Holds m) (hWork : m.workOf? t = some work)
    (hRequest : work.localRequest? = some (specifier, dir))
    (hOutcome : m.outcome? t = some (.ok (some x))) :
    m.Landed l t specifier dir x.key x.module := by
  have hPost := hHolds.post hWork hOutcome
  obtain ⟨loader, job⟩ := work
  cases job <;> simp only [Work.localRequest?, reduceCtorEq, Option.ite_none_right_eq_some,
    Option.some.injEq, Prod.mk.injEq, Bool.and_eq_true] at hRequest
  case load =>
    obtain ⟨rfl, rfl⟩ := hRequest
    obtain ⟨y, hIs, hLanded⟩ := hPost _ rfl
    exact Option.some.inj hIs ▸ hLanded
  case member | call =>
    obtain ⟨⟨hHas, hLocal⟩, rfl, rfl⟩ := hRequest
    obtain ⟨y, hIs, hSatisfied⟩ := hPost _ rfl
    exact Option.some.inj hIs ▸ hSatisfied.landed hHas hLocal

/-- As a part of the work of the task `t`, the task `k` has loaded a specifier seen from a
    directory, and this is what it has come to. -/
structure Moment.LoadedFor (m : Moment) (t : TaskId) (loader : Loader) (specifier dir : String)
    (k : TaskId) (x : Loaded) : Prop where
  spawned : .act t (.spawn ⟨loader, .member specifier (some dir)⟩) k ∈ m.past
  work : m.workOf? k = some ⟨loader, .member specifier (some dir)⟩
  outcome : m.outcome? k = some (.ok (some x))

/-- What is required is there or is not, without any waiting. -/
theorem Load.drive_require (h : Host) (w : World) (name : String) :
    (Load.require name).run.drive h w =
      (.done (match w.store.registry.get? name with
        | some i => .ok i
        | none => .error (.notLoaded name)), w) := by
  have hRun : (Load.require name).run = .ask (.store (.registered name)) fun found =>
      (match found with
        | some i => (return i : Attempt Instance)
        | none => throw (Failure.notLoaded name)).run := rfl
  have hPerform : (Op.store (.registered name)).perform h w =
      some (w.store.registry.get? name, w) := rfl
  rw [hRun, drive, hPerform]
  cases hGet : w.store.registry.get? name <;> rfl

theorem Load.drive_require_iff {name : String} {i : Instance} :
    (Load.require name).run.drive h w = (.done (.ok i), w) ↔
      w.store.registry.get? name = some i := by
  rw [drive_require]
  cases w.store.registry.get? name <;> simp

end Bundleless
