import Bundleless.Proofs.LocalRuns
import Bundleless.Proofs.Replay
import Bundleless.World.Site

/-! # Dependencies go first

    A module is handed to the page only when everything that its source
    imports is there: whatever it requires then is found at once, and the
    local modules among it have been executed before. This holds for local
    modules and for the entry alike, and for every way in which a specifier
    can be satisfied.
-/

namespace Bundleless

variable {l : Loader} {h : Host} {w₀ w : World} {past : List Label}

/-- A specifier of a source, seen from a directory, is provided for: it can be required, and what a
    local one means is executed and cached. -/
structure Moment.Provided (m : Moment) (h : Host) (t : TaskId) (loader : Loader)
    (specifier dir : String) : Prop where
  required : ∃ i, (Load.require specifier).run.drive h m.toWorld = (.done (.ok i), m.toWorld)
  executed : loader.hasLocal = true → LocalPath.isLocal specifier = true →
    ∃ k x, m.LoadedFor t loader specifier dir k x ∧ m.Cached x.key x.module ∧
      m.Executed x.key x.module

/-- What has been loaded for a task is provided for. -/
theorem Moment.Supplied.provided {m : Moment} {t : TaskId} {loader : Loader} {s dir : String}
    (hSupplied : m.Supplied l t loader s (some dir)) (hInv : LocalInv l m) :
    m.Provided h t loader s dir := by
  obtain ⟨k, x, hSpawn, hWork, hOutcome, hSatisfied⟩ := hSupplied
  refine ⟨?_, fun hHas hLocal => ?_⟩
  · obtain ⟨i, hGet⟩ := (Registry.contains_iff ..).mp hSatisfied.registered
    exact ⟨i, Load.drive_require_iff.mpr hGet⟩
  · have hLanded := hSatisfied.landed hHas hLocal
    exact ⟨k, x, ⟨hSpawn, hWork, hOutcome⟩, hLanded.cached, hInv.cache _ _ hLanded.cached⟩

/-- **No module runs before its dependencies.** In every run, when a task is about to hand a module
    to the page, then the module was compiled from the source that is the task's to run, and every
    specifier of that source is provided for. -/
theorem World.Run.dependencies_first (hRun : World.Run h l.Asks w₀ past w) (hFresh : w₀.Fresh)
    {t : TaskId} {work : Work} {compiled : CompiledModule}
    {next : (HostOp.execute compiled).Reply → Load Outcome}
    (hTask : w.tasks[t]? = some ⟨work, .ask (.host (.execute compiled)) next⟩) :
    ∃ path source dir, Moment.Runs ⟨w, past⟩ t work.loader work.job path source dir ∧
      .act t (.host (.compile path source)) (.ok compiled) ∈ past ∧
      ∀ s ∈ Source.specifiers source, Moment.Provided ⟨w, past⟩ h t work.loader s dir := by
  have hAdequate := hRun.adequate hFresh
  have hReady : Moment.Ready ⟨w, past⟩ l work t compiled := hAdequate.may hTask
  obtain ⟨path, source, dir, hRuns, hCompile, hSupplied⟩ := hReady
  exact ⟨path, source, dir, hRuns, hCompile, fun s hs =>
    (hSupplied s hs).provided hAdequate.holds.inv⟩

/-- A module about to run that imports another one, which has been executed. -/
theorem World.Run.dependencies_first_nested : ∃ past w work next,
    World.Run (Site.host {}) Replay.loader.Asks {} past w ∧ World.Fresh {} ∧
    w.tasks[2]? = some ⟨work, .ask (.host (.execute ⟨"src/main.ts", Replay.importing⟩)) next⟩ ∧
    ∃ path source dir, Moment.Runs ⟨w, past⟩ 2 work.loader work.job path source dir ∧
      .act 2 (.host (.compile path source)) (.ok ⟨"src/main.ts", Replay.importing⟩) ∈ past ∧
      ∀ s ∈ Source.specifiers source,
        Moment.Provided ⟨w, past⟩ (Site.host {}) 2 work.loader s dir := by
  obtain ⟨past, w, hRun, hNext⟩ := World.exists_run (Site.host {}) Replay.loader {} Replay.upToRun
    (fun x => x.2.nextOp? 2 = some (.host (.execute ⟨"src/main.ts", Replay.importing⟩)))
    (by decide +kernel)
  obtain ⟨work, next, hTask⟩ := World.exists_task_of_nextOp? (of_decide_eq_true hNext)
  exact ⟨past, w, work, next, hRun, World.fresh_empty, hTask,
    hRun.dependencies_first World.fresh_empty hTask⟩

end Bundleless
