import Bundleless.Proofs.ImportGraph

/-! # Whom tasks wait for

    On a static site whoever waits for a task has started it or joined it,
    and its work leads to the work of that task. This holds for tasks and for
    whoever else calls upon them, and every step keeps it: it is said of a
    world alone (`World.Sound`), whatever has led to it. Where the work is
    grounded nobody waits in a circle.
-/

namespace Bundleless

variable {l : Loader} {S : StaticSite} {h : Host} {n : Nat} {w w' : World} {t : TaskId}

/-! ## Section 1: Names of tasks -/

/-- The reply to an operation that the site gives. -/
def Op.FitsReply (S : StaticSite) : (o : Op) → o.Reply → Prop
  | .reply method url, r => r = S method url
  | _, _ => True

/-- The step is one on the site. -/
def Label.Fits (S : StaticSite) : Label → Prop
  | .act _ o r => o.FitsReply S r
  | .start _ => True

/-- Through the answer a task becomes known by its number, and this is its work. -/
inductive Answered.Names : Answered → TaskId → Work → Prop
  | spawn (new : Work) (k : TaskId) : Names ⟨.spawn new, k⟩ k new
  | resolve (l' l'' : Loader) (basePath : String) (k : TaskId) :
      Names ⟨.shareResolve l' basePath, k⟩ k ⟨l'', .resolve basePath⟩
  | execute (l' l'' : Loader) (path source : String) (k : TaskId) :
      Names ⟨.shareExecute l' path source, .inr k⟩ k ⟨l'', .execute path source⟩

/-- The task that becomes known through an answer. -/
def Answered.named? : Answered → Option TaskId
  | ⟨.spawn _, k⟩ | ⟨.shareResolve .., k⟩ | ⟨.shareExecute .., .inr k⟩ => some k
  | _ => none

/-- The history is one on the site; and the tasks that became known through it are there, have
    numbers from `n` on, and are at work that was due. -/
structure History.Sound (hist : History) (S : StaticSite) (n : Nat) (w : World)
    (Due : Work → Prop) : Prop where
  replies : hist.From S
  named : ∀ x ∈ hist, ∀ k, x.named? = some k →
    ∃ new, x.Names k new ∧ n ≤ k ∧ w.workOf? k = some new ∧ Due new

namespace History

variable {hist : History} {Due : Work → Prop}

theorem Sound.nil : Sound [] S n w Due where
  replies _ _ _ hMem := nomatch hMem
  named _ hMem := nomatch hMem

theorem Sound.mono (hSound : hist.Sound S n w Due)
    (hWork : ∀ k work, w.workOf? k = some work → w'.workOf? k = some work) :
    hist.Sound S n w' Due where
  replies := hSound.replies
  named x hx k hNamed := by
    obtain ⟨new, hNames, hLe, hAt, hDue⟩ := hSound.named x hx k hNamed
    exact ⟨new, hNames, hLe, hWork k new hAt, hDue⟩

theorem From.cons (hFrom : hist.From S) {o : Op} {r : o.Reply} (hFits : o.FitsReply S r) :
    From (⟨o, r⟩ :: hist) S := by
  intro method url reply hMem
  rcases List.mem_cons.mp hMem with hEq | hMem
  · cases hEq
    exact hFits
  · exact hFrom method url reply hMem

theorem Sound.cons (hSound : hist.Sound S n w Due) {o : Op} {r : o.Reply} (hFits : o.FitsReply S r)
    (hNamed : ∀ k, Answered.named? ⟨o, r⟩ = some k →
      ∃ new, Answered.Names ⟨o, r⟩ k new ∧ n ≤ k ∧ w.workOf? k = some new ∧ Due new) :
    Sound (⟨o, r⟩ :: hist) S n w Due where
  replies := hSound.replies.cons hFits
  named x hx k hIs := by
    rcases List.mem_cons.mp hx with rfl | hx
    · exact hNamed k hIs
    · exact hSound.named x hx k hIs

/-- Whoever is waited for is known through the history, and leaves a module where one is wanted. -/
def Backs (hist : History) : Op → Prop
  | .await k => hist.Joined k
  | .allOk ks => ∀ k ∈ ks, ∃ new, ⟨.spawn new, k⟩ ∈ hist
  | .allDone ks => ∀ k ∈ ks, hist.Called k
  | _ => True

end History

theorem Work.Allows.backs {work : Work} {hist : History} {o : Op} (hAllows : work.Allows hist o) :
    hist.Backs o := by
  cases o with
  | await k => exact hAllows
  | allOk ks => exact hAllows
  | allDone ks => exact hAllows
  | _ => trivial

/-- The operation waits for the task; for what it loads, or only for its end. -/
inductive Op.WaitsFor : Op → TaskId → (wanted : Bool) → Prop
  | await (k : TaskId) : WaitsFor (.await k) k true
  | allOk {ks : List TaskId} {k : TaskId} (hMem : k ∈ ks) : WaitsFor (.allOk ks) k false
  | allDone {ks : List TaskId} {k : TaskId} (hMem : k ∈ ks) : WaitsFor (.allDone ks) k true

/-- **Whoever is waited for was due**, and comes to a module if one is wanted. -/
theorem History.Sound.waits {hist : History} {Due : Work → Prop} {o : Op} {k : TaskId}
    {wanted : Bool} (hSound : hist.Sound S n w Due) (hBacks : hist.Backs o)
    (hWaits : o.WaitsFor k wanted) : ∃ new, n ≤ k ∧ w.workOf? k = some new ∧ Due new ∧
      (wanted = true → new.job.leavesModule = true) := by
  have hOf : ∀ x ∈ hist, x.named? = some k →
      (∀ new, x.Names k new → wanted = true → new.job.leavesModule = true) →
      ∃ new, n ≤ k ∧ w.workOf? k = some new ∧ Due new ∧
        (wanted = true → new.job.leavesModule = true) := by
    intro x hx hNamed hLeaves
    obtain ⟨new, hNames, hLe, hWork, hDue⟩ := hSound.named x hx k hNamed
    exact ⟨new, hLe, hWork, hDue, hLeaves new hNames⟩
  cases hWaits with
  | await =>
    rcases hBacks with ⟨l', basePath, hMem⟩ | ⟨l', path, source, hMem⟩
    · exact hOf _ hMem rfl fun new hNames _ => by cases hNames; rfl
    · exact hOf _ hMem rfl fun new hNames _ => by cases hNames; rfl
  | allOk hMem =>
    obtain ⟨new, hSpawn⟩ := hBacks k hMem
    exact hOf _ hSpawn rfl fun _ _ hWanted => by cases hWanted
  | allDone hMem =>
    obtain ⟨l', name, dir, hSpawn⟩ := hBacks k hMem
    exact hOf _ hSpawn rfl fun new hNames _ => by cases hNames; rfl

/-! ## Section 2: Sound worlds -/

/-- On a static site each task from `n` on, at grounded work, conducts itself by its rule, and those
    before are done; whoever is in the tables of the stages is one of them, at the work that the
    table says. -/
structure World.Sound (l : Loader) (S : StaticSite) (n : Nat) (w : World) : Prop where
  tasks : ∀ t work p, n ≤ t → w.tasks[t]? = some ⟨work, p⟩ →
    l.Serves work.loader ∧ l.Grounded S work ∧
      ∃ hist, p.Obeys work.Allows work.Ends hist ∧ hist.Sound S n w (l.Leads S work)
  old : ∀ t task, t < n → w.tasks[t]? = some task → ∃ r, task.program = .done r
  le : n ≤ w.tasks.length
  resolving : ∀ basePath k, w.store.resolving.get? basePath = some k →
    n ≤ k ∧ ∃ l', w.workOf? k = some ⟨l', .resolve basePath⟩
  executing : ∀ path k, w.store.executing.get? path = some k → n ≤ k ∧
    ∃ l' source, w.workOf? k = some ⟨l', .execute path source⟩ ∧ l.textAt? S path = some source

/-- What may be asked of the tasks of a page on a static site: to start what is due, and to join the
    stages of what is there. -/
def Op.Asks (l : Loader) (S : StaticSite) (Due : Work → Prop) : Op → Prop
  | .spawn new => l.Serves new.loader ∧ Due new
  | .shareResolve l' basePath => l.Serves l' ∧ ∀ l'', Due ⟨l'', .resolve basePath⟩
  | .shareExecute l' path source => l.Serves l' ∧ l.textAt? S path = some source ∧
      ∀ l'', Due ⟨l'', .execute path source⟩
  | _ => True

theorem Work.Allows.asks {work : Work} {hist : History} {o : Op} (hAllows : work.Allows hist o)
    (hServes : l.Serves work.loader) (hFrom : hist.From S) : o.Asks l S (l.Leads S work) := by
  cases o with
  | spawn new =>
    refine ⟨?_, Allows.leads_spawn hAllows hServes hFrom⟩
    rw [Spawns.loader_eq hAllows]
    exact hServes
  | shareResolve l' basePath =>
    exact ⟨hAllows.1 ▸ hServes, Allows.leads_resolve hAllows hServes⟩
  | shareExecute l' path source =>
    obtain ⟨basePath, hJob, hFind⟩ := Allows.find? hAllows hServes hFrom
    refine ⟨hAllows.1 ▸ hServes, Loader.textAt?_of_find? hFind, fun l'' => ?_⟩
    obtain ⟨loader, job⟩ := work
    obtain rfl : job = .resolve basePath := hJob
    exact .execute hFind
  | _ => trivial

/-- Whoever is started was due. -/
theorem Op.Asks.starts {Due : Work → Prop} {o : Op} {r : o.Reply} (hAsks : o.Asks l S Due)
    (hAnswer : o.Answers h w r w') :
    ∃ works, w.Starts w' works ∧ ∀ new ∈ works, l.Serves new.loader ∧ Due new := by
  cases hAnswer.effect with
  | quiet hSame =>
    exact ⟨[], by simpa [World.Starts] using hSame.tasks, fun _ hMem => nomatch hMem⟩
  | spawn new => exact ⟨[new], rfl, List.forall_mem_singleton.mpr hAsks⟩
  | startResolve l' basePath =>
    exact ⟨[⟨l', .resolve basePath⟩], rfl, List.forall_mem_singleton.mpr ⟨hAsks.1, hAsks.2 l'⟩⟩
  | startExecute l' path source =>
    exact ⟨[⟨l', .execute path source⟩], rfl,
      List.forall_mem_singleton.mpr ⟨hAsks.1, hAsks.2.2 l'⟩⟩
  | _ => exact ⟨[], by simp [World.Starts, World.withStore], fun _ hMem => nomatch hMem⟩

namespace World

/-- A world with more tasks, at grounded work. -/
theorem Sound.of_starts {works : List Work} (hSound : w.Sound l S n) (hStarts : w.Starts w' works)
    (hWorks : ∀ new ∈ works, l.Serves new.loader ∧ l.Grounded S new)
    (hResolving : ∀ basePath k, w'.store.resolving.get? basePath = some k →
      w.store.resolving.get? basePath = some k ∨
        n ≤ k ∧ ∃ l', w'.workOf? k = some ⟨l', .resolve basePath⟩)
    (hExecuting : ∀ path k, w'.store.executing.get? path = some k →
      w.store.executing.get? path = some k ∨ n ≤ k ∧ ∃ l' source,
        w'.workOf? k = some ⟨l', .execute path source⟩ ∧ l.textAt? S path = some source) :
    w'.Sound l S n := by
  have hWork : ∀ k work, w.workOf? k = some work → w'.workOf? k = some work := by
    intro k work hAt
    exact hStarts.workOf?_old hAt
  refine ⟨fun t work p hLe hTask => ?_, fun t task hLt hTask => ?_, ?_, fun basePath k hGet => ?_,
    fun path k hGet => ?_⟩
  · rcases Nat.lt_or_ge t w.tasks.length with hLt | hGe
    · rw [hStarts.getElem?_of_lt hLt] at hTask
      obtain ⟨hServes, hGrounded, hist, hObeys, hHist⟩ := hSound.tasks t work p hLe hTask
      exact ⟨hServes, hGrounded, hist, hObeys, hHist.mono hWork⟩
    · -- A new task has its whole program before it.
      obtain ⟨hIs, hProgram⟩ := hStarts.program_of_le hGe hTask
      obtain ⟨hServes, hGrounded⟩ := hWorks work (List.mem_of_getElem? hIs)
      refine ⟨hServes, hGrounded, [], ?_, .nil⟩
      have hProgram : p = work.program := hProgram
      rw [hProgram]
      exact work.obeys
  · rw [hStarts.getElem?_of_lt (Nat.lt_of_lt_of_le hLt hSound.le)] at hTask
    exact hSound.old t task hLt hTask
  · rw [hStarts, List.length_append]
    exact Nat.le_add_right_of_le hSound.le
  · rcases hResolving basePath k hGet with hOld | hNew
    · obtain ⟨hLe, l', hAt⟩ := hSound.resolving basePath k hOld
      exact ⟨hLe, l', hWork k _ hAt⟩
    · exact hNew
  · rcases hExecuting path k hGet with hOld | hNew
    · obtain ⟨hLe, l', source, hAt, hText⟩ := hSound.executing path k hOld
      exact ⟨hLe, l', source, hWork k _ hAt, hText⟩
    · exact hNew

/-- **Whatever is asked of the tasks, the world stays sound.** -/
theorem Sound.answer {Due : Work → Prop} {o : Op} {r : o.Reply} (hSound : w.Sound l S n)
    (hAsks : o.Asks l S Due) (hGrounded : ∀ new, Due new → l.Grounded S new)
    (hAnswer : o.Answers h w r w') : w'.Sound l S n := by
  obtain ⟨works, hStarts, hDue⟩ := hAsks.starts hAnswer
  -- The tasks are settled by this; what is left are the tables of the stages.
  refine hSound.of_starts hStarts (fun new hMem => ?_) ?_ ?_
  · exact ⟨(hDue new hMem).1, hGrounded new (hDue new hMem).2⟩
  · intro b k hGet
    cases hAnswer.effect with
    | quiet hSame => exact Or.inl (hSame.resolving ▸ hGet)
    | startResolve l' basePath =>
      rcases Table.get?_insert_cases hGet with ⟨rfl, rfl⟩ | hOld
      · exact Or.inr ⟨hSound.le, l', (starts_start _).workOf?_new⟩
      · exact Or.inl hOld
    | endResolve basePath => exact Or.inl (Table.get?_of_erase hGet)
    | clear => cases hGet
    | _ => exact Or.inl hGet
  · intro p k hGet
    cases hAnswer.effect with
    | quiet hSame => exact Or.inl (hSame.executing ▸ hGet)
    | startExecute l' path source =>
      rcases Table.get?_insert_cases hGet with ⟨rfl, rfl⟩ | hOld
      · exact Or.inr ⟨hSound.le, l', source, (starts_start _).workOf?_new, hAsks.2.1⟩
      · exact Or.inl hOld
    | endExecute path => exact Or.inl (Table.get?_of_erase hGet)
    | clear => cases hGet
    | _ => exact Or.inl hGet

/-- Whoever becomes known through an answer was due. -/
theorem Sound.named {Due : Work → Prop} {o : Op} {r : o.Reply} (hSound : w.Sound l S n)
    (hAsks : o.Asks l S Due) (hAnswer : o.Answers h w r w') {k : TaskId}
    (hNamed : Answered.named? ⟨o, r⟩ = some k) :
    ∃ new, Answered.Names ⟨o, r⟩ k new ∧ n ≤ k ∧ w'.workOf? k = some new ∧ Due new := by
  cases o with
  | spawn new =>
    obtain ⟨rfl, rfl⟩ := hAnswer.spawn
    obtain rfl := Option.some.inj hNamed
    exact ⟨new, .spawn new _, hSound.le, (starts_start new).workOf?_new, hAsks.2⟩
  | shareResolve l' basePath =>
    obtain rfl := Option.some.inj hNamed
    rcases hAnswer.shareResolve with ⟨hJoin, rfl⟩ | ⟨-, hIs, rfl⟩
    · obtain ⟨hLe, l'', hAt⟩ := hSound.resolving basePath _ hJoin
      exact ⟨_, .resolve l' l'' basePath _, hLe, hAt, hAsks.2 l''⟩
    · rw [hIs]
      exact ⟨_, .resolve l' l' basePath _, hSound.le, (starts_start _).workOf?_new, hAsks.2 l'⟩
  | shareExecute l' path source =>
    rcases hAnswer.shareExecute with ⟨j, rfl, hJoin, rfl⟩ | ⟨i, rfl, -, -⟩ | ⟨rfl, -, -, rfl⟩
    · obtain rfl := Option.some.inj hNamed
      obtain ⟨hLe, l'', source', hAt, hText⟩ := hSound.executing path _ hJoin
      obtain rfl : source = source' := Option.some.inj (hAsks.2.1.symm.trans hText)
      exact ⟨_, .execute l' l'' path source _, hLe, hAt, hAsks.2.2 l''⟩
    · cases hNamed
    · obtain rfl := Option.some.inj hNamed
      exact ⟨_, .execute l' l' path source _, hSound.le, (starts_start _).workOf?_new,
        hAsks.2.2 l'⟩
  | _ => cases hNamed

/-- **A step of a task keeps the world sound.** -/
theorem Sound.act {work : Work} {o : Op} {next : o.Reply → Load Outcome} {r : o.Reply}
    (hSound : w.Sound l S n) (hTask : w.tasks[t]? = some ⟨work, .ask o next⟩)
    (hAnswer : o.Answers h w r w') (hFits : o.FitsReply S r) :
    (w'.setProgram t (next r)).Sound l S n := by
  have hLe : n ≤ t := by
    refine Nat.not_lt.mp fun hLt => ?_
    obtain ⟨r', hDone⟩ := hSound.old t _ hLt hTask
    cases hDone
  obtain ⟨hServes, hGrounded, hist, hObeys, hHist⟩ := hSound.tasks t work _ hLe hTask
  have hAsks := hObeys.allows.asks hServes hHist.replies
  have hSound' := hSound.answer hAsks (fun new hLeads => hGrounded.leads hLeads) hAnswer
  obtain ⟨works, hStarts⟩ := hAnswer.starts
  have hTask' := hStarts.getElem?_of_task hTask
  have hWork : ∀ k work, w.workOf? k = some work → w'.workOf? k = some work := by
    intro k work hAt
    exact hStarts.workOf?_old hAt
  refine ⟨fun k work' p hLeK hTaskK => ?_, fun k task hLt hTaskK => ?_, ?_, fun basePath k hGet => ?_,
    fun path k hGet => ?_⟩
  · by_cases hEq : k = t
    · -- The task that made the step has one more answer in its history.
      subst hEq
      obtain ⟨rfl, rfl⟩ : work = work' ∧ next r = p := by
        simpa using (getElem?_setProgram_self hTask').symm.trans hTaskK
      obtain - | ⟨-, hNext⟩ := hObeys
      refine ⟨hServes, hGrounded, _, hNext r, ?_⟩
      refine ((hHist.mono hWork).cons hFits fun j hNamed => hSound.named hAsks hAnswer hNamed).mono ?_
      exact fun j work hAt => by rwa [workOf?_setProgram]
    · rw [getElem?_setProgram_of_ne _ hEq] at hTaskK
      obtain ⟨hServes', hGrounded', hist', hObeys', hHist'⟩ := hSound'.tasks k work' p hLeK hTaskK
      exact ⟨hServes', hGrounded', hist', hObeys',
        hHist'.mono fun j work hAt => by rwa [workOf?_setProgram]⟩
  · have hNe : k ≠ t := Nat.ne_of_lt (Nat.lt_of_lt_of_le hLt hLe)
    rw [getElem?_setProgram_of_ne _ hNe] at hTaskK
    exact hSound'.old k task hLt hTaskK
  · rw [length_setProgram]
    exact hSound'.le
  · obtain ⟨hLeK, l', hAt⟩ := hSound'.resolving basePath k hGet
    exact ⟨hLeK, l', by rwa [workOf?_setProgram]⟩
  · obtain ⟨hLeK, l', source, hAt, hText⟩ := hSound'.executing path k hGet
    exact ⟨hLeK, l', source, by rwa [workOf?_setProgram], hText⟩

/-- Grounded work that is asked for keeps it sound. -/
theorem Sound.start {work : Work} (hSound : w.Sound l S n) (hServes : l.Serves work.loader)
    (hGrounded : l.Grounded S work) : (w.start work).2.Sound l S n := by
  refine hSound.of_starts (starts_start work) (fun new hMem => ?_) (fun _ _ => Or.inl)
    fun _ _ => Or.inl
  obtain rfl := List.mem_singleton.mp hMem
  exact ⟨hServes, hGrounded⟩

/-- All tasks are done, and no stage of a local module is under way. What is cached and remembered
    does not matter. -/
structure Idle (w : World) : Prop where
  done : ∀ (t : TaskId) (task : Task), w.tasks[t]? = some task → ∃ r, task.program = .done r
  resolving : w.store.resolving = []
  executing : w.store.executing = []

theorem idle_empty : Idle {} := ⟨fun t task hTask => by simp at hTask, rfl, rfl⟩

/-- Before anything is asked for nobody waits. -/
theorem Idle.sound (hIdle : w.Idle) : w.Sound l S w.tasks.length where
  tasks t work p hLe hTask := by
    have hLt := (List.getElem?_eq_some_iff.mp hTask).1
    exact absurd hLt (Nat.not_lt.mpr hLe)
  old t task _ hTask := hIdle.done t task hTask
  le := Nat.le_refl _
  resolving basePath k hGet := by simp [hIdle.resolving] at hGet
  executing path k hGet := by simp [hIdle.executing] at hGet

/-- **Every run on a static site is sound** that starts where nothing is under way, if only grounded
    work is asked for. -/
theorem Run.sound {asks : Work → Prop} {w₀ : World} {past : List Label}
    (hRun : Run h asks w₀ past w) (hIdle : w₀.Idle) (hFits : ∀ step ∈ past, step.Fits S)
    (hStarted : ∀ work, .start work ∈ past → l.Serves work.loader ∧ l.Grounded S work) :
    w.Sound l S w₀.tasks.length := by
  induction hRun with
  | refl => exact hIdle.sound
  | tail _ hStep ih =>
    have hSound := ih (fun step hMem => hFits step (List.mem_cons_of_mem _ hMem))
      fun work hMem => hStarted work (List.mem_cons_of_mem _ hMem)
    cases hStep with
    | act hTask hAnswer => exact hSound.act hTask hAnswer (hFits _ List.mem_cons_self)
    | start =>
      obtain ⟨hServes, hGrounded⟩ := hStarted _ List.mem_cons_self
      exact hSound.start hServes hGrounded

end World

end Bundleless
