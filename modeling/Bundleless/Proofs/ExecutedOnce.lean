import Bundleless.Proofs.LocalRuns
import Bundleless.Proofs.Replay
import Bundleless.World.Site

/-! # Local modules are executed once

    Requests reach a path through different specifiers and directories, and
    they overlap in any way. All the same a path has at most one task that
    executes it at a time, and at most one that ever succeeds; what that task
    puts into the cache stays there and is what everybody gets.
-/

namespace Bundleless

variable {l : Loader} {h : Host} {w₀ w : World} {past : List Label}

/-- Of two tasks that execute a path the earlier one has failed, and so there are no two that have
    not. -/
theorem World.Run.eq_of_executes (hRun : World.Run h l.Asks w₀ past w) (hFresh : w₀.Fresh)
    {path : String} {j k : TaskId} (hFirst : w.Executes j path) (hThen : w.Executes k path)
    (hNotJ : ∀ e, w.outcome? j ≠ some (.error e)) (hNotK : ∀ e, w.outcome? k ≠ some (.error e)) :
    j = k := by
  have hInv : LocalInv l ⟨w, past⟩ := (hRun.adequate hFresh).holds.inv
  -- Whichever came first has failed before the other one was started.
  rcases Nat.lt_trichotomy j k with hLt | hEq | hGt
  · obtain ⟨e, hFailed⟩ := hInv.again j k path hLt hFirst hThen
    exact absurd hFailed (hNotJ e)
  · exact hEq
  · obtain ⟨e, hFailed⟩ := hInv.again k j path hGt hThen hFirst
    exact absurd hFailed (hNotK e)

/-- The module at a path is executed at most once. -/
structure World.ExecutesOnce (h : Host) (l : Loader) (w : World) (path : String) : Prop where
  /-- At most one task at a time executes it. -/
  exclusive : ∀ j k, w.Executes j path → w.Executes k path → w.outcome? j = none →
    w.outcome? k = none → j = k
  /-- At most one ever succeeds. -/
  once : ∀ j k x y, w.Executes j path → w.Executes k path → w.outcome? j = some (.ok x) →
    w.outcome? k = some (.ok y) → j = k
  /-- The cache does not change any more once it is written. -/
  stays : ∀ i, w.store.cache.get? path = some i → ∀ more w', World.Run h l.Asks w more w' →
    w'.store.cache.get? path = some i
  /-- Whoever has loaded it has got the module that is cached. -/
  same : ∀ t work specifier dir i, w.workOf? t = some work →
    work.localRequest? = some (specifier, dir) →
    w.outcome? t = some (.ok (some ⟨path, i⟩)) → w.store.cache.get? path = some i

/-- **Each local module is executed at most once**, in every run and at every moment of it. -/
theorem World.Run.executed_once (hRun : World.Run h l.Asks w₀ past w) (hFresh : w₀.Fresh)
    (path : String) : w.ExecutesOnce h l path where
  exclusive j k hJ hK hOpenJ hOpenK :=
    hRun.eq_of_executes hFresh hJ hK (by simp [hOpenJ]) (by simp [hOpenK])
  once j k x y hJ hK hOkJ hOkK :=
    hRun.eq_of_executes hFresh hJ hK (by simp [hOkJ]) (by simp [hOkK])
  stays i hCached more w' hMore := (hRun.later hFresh hMore).cached path i hCached
  same t work specifier dir i hWork hRequest hOutcome :=
    ((hRun.adequate hFresh).holds.landed hWork hRequest hOutcome).cached

/-- Two requests for one file, by different specifiers. Both look for it, and both get the module
    that the one task has executed. -/
theorem World.Run.executed_once_shared : ∃ past w,
    World.Run (Site.host {}) Replay.loader.Asks {} past w ∧ World.Fresh {} ∧
    (w.loadedBy? 0).map (·.key) = some "src/a.tsx" ∧ w.loadedBy? 1 = w.loadedBy? 0 ∧
    w.ExecutesOnce (Site.host {}) Replay.loader "src/a.tsx" := by
  obtain ⟨past, w, hRun, hLoaded⟩ := World.exists_run (Site.host {}) Replay.loader {}
    [.ask (.load "./a" "src"), .ask (.load "./a.tsx" "src"), .go 0 3, .go 1 3,
      .go 2 1, .reply 2 Replay.missing, .go 3 1, .reply 3 (Replay.found "export const a = 1;"),
      .go 2 1, .reply 2 (Replay.found "export const a = 1;"), .go 2 2, .go 3 2,
      .go 4 6, .go 2 2, .go 3 2, .go 0 3, .go 1 3]
    (fun x => (x.2.loadedBy? 0).map (·.key) = some "src/a.tsx" ∧ x.2.loadedBy? 1 = x.2.loadedBy? 0)
    (by decide +kernel)
  have hLoaded := of_decide_eq_true hLoaded
  exact ⟨past, w, hRun, World.fresh_empty, hLoaded.1, hLoaded.2,
    hRun.executed_once World.fresh_empty "src/a.tsx"⟩

end Bundleless
