import Bundleless.Proofs.Replay
import Bundleless.Proofs.Waiting
import Bundleless.World.Site
import Mathlib.Logic.Hydra

/-! # Loads that settle

    On a static site grounded work comes to an end, in whatever order its
    tasks are carried out. Two things are shown: as long as a task is not
    done some task can go on, as nobody waits in a circle; and every step
    replaces a task by smaller ones, with less of its program before it, or
    at work that its own leads to.
-/

namespace Bundleless

variable {l : Loader} {S : StaticSite} {h : Host} {n : Nat} {w w' : World} {t : TaskId}

/-! ## Section 1: Waiting -/

namespace World

/-- The task is about to wait for the other one. -/
def WaitsFor (w : World) (t k : TaskId) : Prop :=
  ∃ work o next wanted, w.tasks[t]? = some ⟨work, .ask o next⟩ ∧ o.WaitsFor k wanted

theorem Sound.le_of_ask {work : Work} {o : Op} {next : o.Reply → Load Outcome}
    (hSound : w.Sound l S n) (hTask : w.tasks[t]? = some ⟨work, .ask o next⟩) : n ≤ t := by
  refine Nat.not_lt.mp fun hLt => ?_
  obtain ⟨r, hDone⟩ := hSound.old t _ hLt hTask
  cases hDone

/-- Whoever waits is at work that leads to the work of the other one. -/
theorem Sound.leads_of_waitsFor (hSound : w.Sound l S n) {k : TaskId} (hWaits : w.WaitsFor t k) :
    ∃ work work', w.workOf? t = some work ∧ w.workOf? k = some work' ∧ l.Grounded S work ∧
      l.Leads S work work' := by
  obtain ⟨work, o, next, wanted, hTask, hOp⟩ := hWaits
  obtain ⟨-, hGrounded, hist, hObeys, hHist⟩ := hSound.tasks t work _ (hSound.le_of_ask hTask) hTask
  obtain ⟨work', -, hWork', hLeads, -⟩ := hHist.waits hObeys.allows.backs hOp
  exact ⟨work, work', workOf?_of_task hTask, hWork', hGrounded, hLeads⟩

/-- **Nobody waits in a circle.** -/
theorem Sound.not_circular (hSound : w.Sound l S n) (t : TaskId) :
    ¬ Relation.TransGen w.WaitsFor t t := by
  intro hCircle
  -- By induction on the work of a task that waits, and waits in a circle.
  suffices hNone : ∀ work, l.Grounded S work → ∀ t, w.workOf? t = some work →
      ¬ Relation.TransGen w.WaitsFor t t by
    obtain ⟨k, hWaits, -⟩ := Relation.TransGen.head'_iff.mp hCircle
    obtain ⟨work, -, hWork, -, hGrounded, -⟩ := hSound.leads_of_waitsFor hWaits
    exact hNone work hGrounded t hWork hCircle
  intro work hGrounded
  induction hGrounded with
  | intro work _ ih =>
    intro t hWork hCircle
    obtain ⟨k, hWaits, hBack⟩ := Relation.TransGen.head'_iff.mp hCircle
    obtain ⟨work₁, work', hWork₁, hWork', -, hLeads⟩ := hSound.leads_of_waitsFor hWaits
    obtain rfl : work = work₁ := Option.some.inj (hWork.symm.trans hWork₁)
    exact ih work' hLeads k hWork' (Relation.TransGen.tail' hBack hWaits)

end World

/-! ## Section 2: Somebody can go on -/

namespace Join

theorem isSome_eager {outcomes : List (Option Outcome)} (hAll : ∀ o ∈ outcomes, o.isSome = true) :
    (eager outcomes).isSome = true := by
  unfold eager
  split
  · rfl
  · rw [if_pos (List.all_eq_true.mpr hAll)]
    rfl

theorem isSome_ordered {outcomes : List (Option Outcome)}
    (hAll : ∀ o ∈ outcomes, o.isSome = true) : (ordered outcomes).isSome = true := by
  fun_induction ordered outcomes with
  | case1 => rfl
  | case2 rest => simpa using hAll none List.mem_cons_self
  | case3 => rfl
  | case4 x rest ih => exact ih fun o ho => hAll o (List.mem_cons_of_mem _ ho)

/-- Where all are done there is nothing to wait for. -/
theorem isSome_all {outcomes : List (Option Outcome)} (hAll : ∀ o ∈ outcomes, o.isSome = true) :
    (all outcomes).isSome = true := by
  unfold all
  split
  · exact isSome_eager hAll
  · exact isSome_ordered hAll

end Join

theorem isSome_mapM {α β : Type} {f : α → Option β} {xs : List α}
    (hAll : ∀ x ∈ xs, (f x).isSome = true) : (xs.mapM f).isSome = true := by
  induction xs with
  | nil => rfl
  | cons x xs ih =>
    obtain ⟨y, hHead⟩ := Option.isSome_iff_exists.mp (hAll x List.mem_cons_self)
    obtain ⟨ys, hTail⟩ := Option.isSome_iff_exists.mp
      (ih fun z hz => hAll z (List.mem_cons_of_mem _ hz))
    simp [List.mapM_cons, hHead, hTail]

theorem World.isSome_loaded? (hDone : (w.outcome? t).isSome = true)
    (hModule : ∀ x, w.outcome? t = some (.ok x) → ∃ y, x = some y) : (w.loaded? t).isSome = true := by
  obtain ⟨r, hOutcome⟩ := Option.isSome_iff_exists.mp hDone
  unfold loaded?
  rw [hOutcome]
  cases r with
  | error e => rfl
  | ok x =>
    obtain ⟨y, rfl⟩ := hModule x hOutcome
    rfl

/-- **An operation is answered on the site as soon as those are done for whom it waits**, with a
    module if one is wanted. -/
theorem World.exists_answer (h : Host) (S : StaticSite) (w : World) (o : Op)
    (hDone : ∀ k wanted, o.WaitsFor k wanted → (w.outcome? k).isSome = true)
    (hModule : ∀ k x, o.WaitsFor k true → w.outcome? k = some (.ok x) → ∃ y, x = some y) :
    ∃ r w', o.Answers h w r w' ∧ o.FitsReply S r := by
  have hPerform : (o.perform h w).isSome = true → (∀ r : o.Reply, o.FitsReply S r) →
      ∃ r w', o.Answers h w r w' ∧ o.FitsReply S r := by
    intro hSome hFits
    obtain ⟨⟨r, w'⟩, hIs⟩ := Option.isSome_iff_exists.mp hSome
    exact ⟨r, w', .perform hIs, hFits r⟩
  cases o with
  | reply method url => exact ⟨S method url, w, .reply method url _, rfl⟩
  | sleep ms => exact ⟨(), w, .wake ms, trivial⟩
  | await k =>
    refine hPerform ?_ fun _ => trivial
    have hLoaded := isSome_loaded? (hDone k true (.await k)) fun x => hModule k x (.await k)
    simpa [Op.perform] using hLoaded
  | allOk ks =>
    refine hPerform ?_ fun _ => trivial
    have hAll : (Join.all (ks.map w.outcome?)).isSome = true := Join.isSome_all fun o ho => by
      obtain ⟨k, hk, rfl⟩ := List.mem_map.mp ho
      exact hDone k false (.allOk hk)
    simpa [Op.perform] using hAll
  | allDone ks =>
    refine hPerform ?_ fun _ => trivial
    have hAll : (ks.mapM w.loaded?).isSome = true := isSome_mapM fun k hk =>
      isSome_loaded? (hDone k true (.allDone hk)) fun x => hModule k x (.allDone hk)
    simpa [Op.perform] using hAll
  | shareResolve l' basePath =>
    refine hPerform ?_ fun _ => trivial
    unfold Op.perform
    dsimp only
    split <;> rfl
  | shareExecute l' path source =>
    refine hPerform ?_ fun _ => trivial
    unfold Op.perform
    dsimp only
    split
    · rfl
    · split <;> rfl
  | _ => exact hPerform rfl fun _ => trivial

namespace World

/-- A task that is not done can be found again with what is left of it. -/
theorem exists_ask_of_open (hLt : t < w.tasks.length) (hOpen : w.outcome? t = none) :
    ∃ work o next, w.tasks[t]? = some ⟨work, .ask o next⟩ := by
  obtain ⟨⟨work, p⟩, hTask⟩ : ∃ task, w.tasks[t]? = some task :=
    ⟨_, List.getElem?_eq_getElem hLt⟩
  cases p with
  | done r => simp [outcome?, hTask, Task.outcome?] at hOpen
  | ask o next => exact ⟨work, o, next, hTask⟩

/-- Whoever is waited for and is done has come to a module if one is wanted. -/
theorem Sound.exists_module (hSound : w.Sound l S n) {k : TaskId} {work : Work} {x : Option Loaded}
    (hLe : n ≤ k) (hWork : w.workOf? k = some work) (hLeaves : work.job.leavesModule = true)
    (hOk : w.outcome? k = some (.ok x)) : ∃ y, x = some y := by
  obtain ⟨work', hTask⟩ := outcome?_eq_some_iff.mp hOk
  obtain rfl : work' = work := Option.some.inj ((workOf?_of_task hTask).symm.trans hWork)
  obtain ⟨-, -, hist, hObeys, -⟩ := hSound.tasks k work' _ hLe hTask
  exact hObeys.of_done.leaves x hLeaves rfl

/-- **While a task is not done some task can go on**: this one, or else one it waits for. -/
theorem Sound.exists_step (h : Host) (hSound : w.Sound l S n) {work : Work} {o : Op}
    {next : o.Reply → Load Outcome} (hTask : w.tasks[t]? = some ⟨work, .ask o next⟩) :
    ∃ step w', Step h (fun _ => False) w step w' ∧ step.Fits S := by
  have hGrounded := (hSound.tasks t work _ (hSound.le_of_ask hTask) hTask).2.1
  induction hGrounded generalizing t o with
  | intro work _ ih =>
    obtain ⟨-, -, hist, hObeys, hHist⟩ := hSound.tasks t work _ (hSound.le_of_ask hTask) hTask
    by_cases hOpen : ∃ k wanted, o.WaitsFor k wanted ∧ w.outcome? k = none
    · -- One of those it waits for is not done, and its work is led to.
      obtain ⟨k, wanted, hWaits, hOpenK⟩ := hOpen
      obtain ⟨work', -, hWork', hLeads, -⟩ := hHist.waits hObeys.allows.backs hWaits
      obtain ⟨work'', o', next', hTask'⟩ := exists_ask_of_open (lt_of_workOf? hWork') hOpenK
      obtain rfl : work'' = work' := Option.some.inj ((workOf?_of_task hTask').symm.trans hWork')
      exact ih work'' hLeads hTask'
    · have hDone : ∀ k wanted, o.WaitsFor k wanted → (w.outcome? k).isSome = true :=
        fun k wanted hWaits => Option.isSome_iff_ne_none.mpr fun hNone =>
          hOpen ⟨k, wanted, hWaits, hNone⟩
      obtain ⟨r, w', hAnswer, hFits⟩ := exists_answer h S w o hDone fun k x hWaits hOk => by
        obtain ⟨work', hLe, hWork', -, hLeaves⟩ := hHist.waits hObeys.allows.backs hWaits
        exact hSound.exists_module hLe hWork' (hLeaves rfl) hOk
      exact ⟨_, _, .act hTask hAnswer, hFits⟩

end World

/-! ## Section 3: Nobody goes on forever -/

/-- A task with less of its program before it, or one at work that the other's leads to. -/
inductive Loader.Smaller (l : Loader) (S : StaticSite) : Work × Load Outcome → Work × Load Outcome → Prop
  | goOn {work : Work} {o : Op} (next : o.Reply → Load Outcome) (r : o.Reply)
      (hGrounded : l.Grounded S work) : Smaller l S (work, next r) (work, .ask o next)
  | leads {work new : Work} (p q : Load Outcome) (hGrounded : l.Grounded S work)
      (hLeads : l.Leads S work new) : Smaller l S (new, p) (work, q)

/-- Tasks do not become smaller forever. -/
theorem Loader.wellFounded_smaller (l : Loader) (S : StaticSite) : WellFounded (l.Smaller S) := by
  have hOf : ∀ work, l.Grounded S work → ∀ p, Acc (l.Smaller S) (work, p) := by
    intro work hGrounded
    induction hGrounded with
    | intro work _ ih =>
      intro p
      induction p with
      | done r =>
        refine ⟨_, fun smaller hSmaller => ?_⟩
        cases hSmaller with
        | leads p _ _ hLeads => exact ih _ hLeads p
      | ask o next ihNext =>
        refine ⟨_, fun smaller hSmaller => ?_⟩
        cases hSmaller with
        | goOn _ r _ => exact ihNext r
        | leads p _ _ hLeads => exact ih _ hLeads p
  refine ⟨fun (work, p) => ⟨_, fun smaller hSmaller => ?_⟩⟩
  -- What is not grounded has nothing below it.
  cases hSmaller with
  | goOn _ r hGrounded => exact hOf work hGrounded _
  | leads p _ hGrounded hLeads => exact hOf _ (hGrounded.leads hLeads) p

/-- What a task is at, and what it has before it. -/
def Task.remaining (task : Task) : Work × Load Outcome := (task.work, task.program)

namespace World

/-- What is before the tasks from `n` on. -/
def ahead (n : Nat) (w : World) : Multiset (Work × Load Outcome) :=
  ((w.tasks.drop n).map Task.remaining : List _)

/-- A task stands between those before it and those after it. -/
theorem exists_split {task : Task} (hTask : w.tasks[t]? = some task) :
    ∃ before after, w.tasks = before ++ task :: after ∧ before.length = t := by
  obtain ⟨hLt, rfl⟩ := List.getElem?_eq_some_iff.mp hTask
  refine ⟨w.tasks.take t, w.tasks.drop (t + 1), ?_, by simpa using hLt.le⟩
  rw [List.getElem_cons_drop, List.take_append_drop]

theorem tasks_setProgram {before after : List Task} {work : Work} {p q : Load Outcome}
    (hTasks : w.tasks = before ++ ⟨work, p⟩ :: after) :
    (w.setProgram before.length q).tasks = before ++ ⟨work, q⟩ :: after := by
  unfold setProgram
  rw [hTasks, List.modify_eq_take_cons_drop (by simp)]
  simp

/-- **A step replaces a task by smaller ones.** -/
theorem Sound.ahead_act {work : Work} {o : Op} {next : o.Reply → Load Outcome} {r : o.Reply}
    (hSound : w.Sound l S n) (hTask : w.tasks[t]? = some ⟨work, .ask o next⟩)
    (hAnswer : o.Answers h w r w') :
    Relation.CutExpand (l.Smaller S) ((w'.setProgram t (next r)).ahead n) (w.ahead n) := by
  have hLe := hSound.le_of_ask hTask
  obtain ⟨hServes, hGrounded, hist, hObeys, hHist⟩ := hSound.tasks t work _ hLe hTask
  obtain ⟨works, hStarts, hDue⟩ :=
    (hObeys.allows.asks hServes hHist.replies).starts hAnswer
  obtain ⟨before, after, hTasks, rfl⟩ := exists_split hTask
  let news : List Task := works.map fun new => ⟨new, new.program⟩
  have hTasks' : w'.tasks = before ++ ⟨work, .ask o next⟩ :: (after ++ news) := by
    rw [hStarts, hTasks, List.append_assoc, List.cons_append]
  -- It is replaced by what is left of it, and by those that the step starts.
  refine ⟨((work, next r) :: news.map Task.remaining : List _), (work, .ask o next),
    fun smaller hMem => ?_, ?_⟩
  · rcases List.mem_cons.mp (Multiset.mem_coe.mp hMem) with rfl | hMem
    · exact .goOn next r hGrounded
    · obtain ⟨task, hNew, rfl⟩ := List.mem_map.mp hMem
      obtain ⟨new, hNewMem, rfl⟩ := List.mem_map.mp hNew
      exact .leads _ _ hGrounded (hDue new hNewMem).2
  · unfold ahead
    rw [tasks_setProgram hTasks', hTasks, List.drop_append_of_le_length hLe,
      List.drop_append_of_le_length hLe]
    simp only [List.map_append, List.map_cons, Task.remaining, ← Multiset.coe_add,
      ← Multiset.cons_coe, ← Multiset.singleton_add]
    ac_rfl

/-! ## Section 4: The end -/

/-- One task takes one step, on the site. Nothing new is asked for. -/
def GoesOn (h : Host) (S : StaticSite) (w w' : World) : Prop :=
  ∃ step, Step h (fun _ => False) w step w' ∧ step.Fits S

/-- Whatever the order in which its tasks go on, on the site, the world comes to rest, and it does
    not do so before they are all done. -/
structure Settles (h : Host) (S : StaticSite) (w : World) : Prop where
  /-- They do not go on forever. -/
  ends : Acc (fun after before => GoesOn h S before after) w
  /-- Where nobody can go on, each has come to a result. -/
  done : ∀ w', Relation.ReflTransGen (GoesOn h S) w w' → (∀ w'', ¬ GoesOn h S w' w'') →
    ∀ t < w'.tasks.length, ∃ r, w'.outcome? t = some r

theorem Sound.goesOn (hSound : w.Sound l S n) (hGoes : GoesOn h S w w') : w'.Sound l S n := by
  obtain ⟨step, hStep, hFits⟩ := hGoes
  cases hStep with
  | act hTask hAnswer => exact hSound.act hTask hAnswer hFits
  | start hAsked => exact hAsked.elim

theorem Sound.ahead_goesOn (hSound : w.Sound l S n) (hGoes : GoesOn h S w w') :
    Relation.CutExpand (l.Smaller S) (w'.ahead n) (w.ahead n) := by
  obtain ⟨step, hStep, -⟩ := hGoes
  cases hStep with
  | act hTask hAnswer => exact hSound.ahead_act hTask hAnswer
  | start hAsked => exact hAsked.elim

/-- **A sound world settles.** -/
theorem settles_of_sound (h : Host) (hSound : w.Sound l S n) : w.Settles h S where
  ends := by
    -- By induction on what is before the tasks.
    suffices hAll : ∀ todo w, w.Sound l S n → w.ahead n = todo →
        Acc (fun after before => GoesOn h S before after) w from hAll _ w hSound rfl
    intro todo
    induction todo using (l.wellFounded_smaller S).cutExpand.induction with
    | _ todo ih =>
      rintro w hSound rfl
      refine ⟨w, fun w' hGoes => ?_⟩
      exact ih _ (hSound.ahead_goesOn hGoes) w' (hSound.goesOn hGoes) rfl
  done := by
    intro w' hPath hRests t hLt
    have hSound' : w'.Sound l S n := by
      clear hRests hLt
      induction hPath with
      | refl => exact hSound
      | tail _ hGoes ih => exact ih.goesOn hGoes
    refine Option.ne_none_iff_exists'.mp fun hOpen => ?_
    obtain ⟨work, o, next, hTask⟩ := exists_ask_of_open hLt hOpen
    obtain ⟨step, w'', hStep, hFits⟩ := hSound'.exists_step h hTask
    exact hRests w'' ⟨step, hStep, hFits⟩

/-- **Loads of modules whose imports make no cycle settle.** On a static site, when all that was
    asked for are requests from which a finite graph without a cycle is reached, then at any moment
    the loads come to their ends after finitely many more steps, in whatever order these are made,
    and no tasks wait for each other in a circle. -/
theorem Run.settles {w₀ : World} {past : List Label} (hRun : Run h l.Asks w₀ past w)
    (hIdle : w₀.Idle) (hFits : ∀ step ∈ past, step.Fits S)
    (hLoads : ∀ work, .start work ∈ past → ∃ specifier dir,
      work.job = .load specifier dir ∧ l.AcyclicFrom S specifier dir) :
    w.Settles h S ∧ ∀ t, ¬ Relation.TransGen w.WaitsFor t t := by
  have hSound : w.Sound l S w₀.tasks.length := by
    refine hRun.sound hIdle hFits fun work hStarted => ⟨?_, ?_⟩
    · exact (hRun.asks_of_start hStarted).2
    · obtain ⟨specifier, dir, hJob, hAcyclic⟩ := hLoads work hStarted
      obtain ⟨loader, job⟩ := work
      obtain rfl : job = .load specifier dir := hJob
      refine Loader.AcyclicFrom.grounded (fun hist new hNew => by cases hNew) rfl ?_
      intro s d hRequest
      obtain ⟨rfl, rfl⟩ := Prod.mk.inj (Option.some.inj hRequest)
      exact hAcyclic
  exact ⟨settles_of_sound h hSound, hSound.not_circular⟩

end World

/-! ### Sites to be evaluated -/

/-- A site of files, where whatever else is asked for is missing. -/
def StaticSite.ofFiles (files : Table String) : StaticSite := fun _ url =>
  match files.get? url with
  | some body => Replay.found body
  | none => Replay.missing

/-- A module that imports two others, which both import a fourth. -/
def StaticSite.diamond : StaticSite := .ofFiles [
  ("https://e.test/src/main.ts", "import \"./a.ts\"; import \"./b.ts\";"),
  ("https://e.test/src/a.ts", "import \"./c.ts\";"),
  ("https://e.test/src/b.ts", "import \"./c.ts\";"),
  ("https://e.test/src/c.ts", "")]

namespace Label

/-- `Label.Fits`, to be evaluated. -/
def fits? (S : StaticSite) : Label → Bool
  | .act _ (.reply method url) r => r = S method url
  | _ => true

theorem fits_of_fits? {step : Label} (hFits : step.fits? S = true) : step.Fits S := by
  cases step with
  | start work => trivial
  | act t o r =>
    cases o with
    | reply method url =>
      have hIs : r = S method url := of_decide_eq_true hFits
      exact hIs
    | _ => trivial

end Label

namespace World

/-- Requests that overlap on the site of `StaticSite.diamond`: one for the module that imports both
    others, one for a module in the middle. The first replies have come. -/
theorem Run.settles_diamond : ∃ past w,
    Run (Site.host {}) Replay.loader.Asks {} past w ∧ Idle {} ∧
    w.outcome? 0 = none ∧ w.outcome? 1 = none ∧
    w.Settles (Site.host {}) .diamond ∧ ∀ t, ¬ Relation.TransGen w.WaitsFor t t := by
  let order := ["src/main.ts", "src/a.ts", "src/b.ts", "src/c.ts"]
  have hGraph : ∀ path ∈ order, Replay.loader.FiniteAcyclic .diamond path := fun path hMem =>
    .of_order hMem (by decide +kernel)
  obtain ⟨past, w, hRun, hIs⟩ := World.exists_run (Site.host {}) Replay.loader {}
    [.ask (.load "./main.ts" "src"), .ask (.load "./a.ts" "src"), .go 0 3, .go 1 3, .go 2 1,
      .go 3 1, .reply 2 (StaticSite.diamond .get "https://e.test/src/main.ts"), .go 2 2, .go 4 1]
    (fun x => x.2.outcome? 0 = none ∧ x.2.outcome? 1 = none ∧
      (∀ step ∈ x.1, step.fits? .diamond = true) ∧
      (∀ work ∈ x.1.filterMap Label.started?, work.job = .load "./main.ts" "src" ∨
        work.job = .load "./a.ts" "src")) (by decide +kernel)
  obtain ⟨hOpen, hOpen', hFits, hStarted⟩ := of_decide_eq_true hIs
  refine ⟨past, w, hRun, idle_empty, hOpen, hOpen', hRun.settles idle_empty (fun step hMem => ?_)
    fun work hMem => ?_⟩
  · exact Label.fits_of_fits? (hFits step hMem)
  · rcases hStarted work (List.mem_filterMap.mpr ⟨_, hMem, rfl⟩) with hJob | hJob
    · refine ⟨_, _, hJob, fun path hTarget => hGraph path ?_⟩
      have hMain : Replay.loader.target? .diamond "./main.ts" "src" = some "src/main.ts" := by
        decide +kernel
      obtain rfl := Option.some.inj (hMain.symm.trans hTarget)
      simp [order]
    · refine ⟨_, _, hJob, fun path hTarget => hGraph path ?_⟩
      have hMiddle : Replay.loader.target? .diamond "./a.ts" "src" = some "src/a.ts" := by
        decide +kernel
      obtain rfl := Option.some.inj (hMiddle.symm.trans hTarget)
      simp [order]

end World

end Bundleless
