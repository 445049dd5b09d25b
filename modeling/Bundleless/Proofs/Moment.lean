import Bundleless.World.Step

/-! # Moments

    A moment is a world together with the steps that led to it. What one task
    knows about the others is what no step takes back: steps that were made,
    what a task works on and what it came to, the cached modules and the keys
    of the registry. `Later` says that all of this is still so.
-/

namespace Bundleless

namespace World

variable {h : Host} {w : World}

/-! ## Section 1: Tasks -/

/-- What a task works on. -/
def workOf? (w : World) (t : TaskId) : Option Work := w.tasks[t]?.map (·.work)

theorem workOf?_of_task {t : TaskId} {work : Work} {p : Load Outcome}
    (hTask : w.tasks[t]? = some ⟨work, p⟩) : w.workOf? t = some work := by
  simp [workOf?, hTask]

theorem lt_of_workOf? {t : TaskId} {work : Work} (hWork : w.workOf? t = some work) :
    t < w.tasks.length := by
  obtain ⟨task, hTask, -⟩ := Option.map_eq_some_iff.mp hWork
  exact (List.getElem?_eq_some_iff.mp hTask).1

/-- A task is done with what it came to, and with nothing else. -/
theorem outcome?_eq_some_iff {t : TaskId} {r : Outcome} :
    w.outcome? t = some r ↔ ∃ work, w.tasks[t]? = some ⟨work, .done r⟩ := by
  constructor
  · intro hOutcome
    obtain ⟨⟨work, p⟩, hTask, hDone⟩ := Option.bind_eq_some_iff.mp hOutcome
    cases p with
    | done r' =>
      obtain rfl : r' = r := by simpa [Task.outcome?] using hDone
      exact ⟨work, hTask⟩
    | ask o next => simp [Task.outcome?] at hDone
  · rintro ⟨work, hTask⟩
    simp [outcome?, hTask, Task.outcome?]

theorem outcome?_of_ask {t : TaskId} {work : Work} {o : Op} {next : o.Reply → Load Outcome}
    (hTask : w.tasks[t]? = some ⟨work, .ask o next⟩) : w.outcome? t = none := by
  simp [outcome?, hTask, Task.outcome?]

/-- A module is loaded by a task that is done. -/
theorem outcome?_of_loaded? {t : TaskId} {l : Loaded} (hLoaded : w.loaded? t = some (.ok l)) :
    w.outcome? t = some (.ok (some l)) := by
  unfold loaded? at hLoaded
  split at hLoaded <;> simp_all

/-! ### Replacing a program -/

@[simp] theorem store_setProgram (t : TaskId) (p : Load Outcome) :
    (w.setProgram t p).store = w.store := rfl

@[simp] theorem length_setProgram (t : TaskId) (p : Load Outcome) :
    (w.setProgram t p).tasks.length = w.tasks.length := by
  simp [setProgram]

theorem getElem?_setProgram_self {t : TaskId} {work : Work} {p q : Load Outcome}
    (hTask : w.tasks[t]? = some ⟨work, q⟩) :
    (w.setProgram t p).tasks[t]? = some ⟨work, p⟩ := by
  simp [setProgram, hTask]

theorem getElem?_setProgram_of_ne {t k : TaskId} (p : Load Outcome) (hNe : k ≠ t) :
    (w.setProgram t p).tasks[k]? = w.tasks[k]? := by
  simp [setProgram, hNe.symm]

@[simp] theorem workOf?_setProgram (t k : TaskId) (p : Load Outcome) :
    (w.setProgram t p).workOf? k = w.workOf? k := by
  simp only [workOf?, setProgram, List.getElem?_modify]
  split <;> simp [Function.comp_def]

/-! ### Starting tasks -/

/-- The other world has the tasks of this one and, after them, new ones at work on `works`, which
    have done nothing yet. -/
def Starts (w w' : World) (works : List Work) : Prop :=
  w'.tasks = w.tasks ++ works.map fun work => ⟨work, work.program⟩

theorem Starts.getElem?_of_lt {w' : World} {works : List Work} (hStarts : w.Starts w' works)
    {t : TaskId} (hLt : t < w.tasks.length) : w'.tasks[t]? = w.tasks[t]? := by
  rw [hStarts, List.getElem?_append_left hLt]

theorem Starts.getElem?_of_task {w' : World} {works : List Work} (hStarts : w.Starts w' works)
    {t : TaskId} {task : Task} (hTask : w.tasks[t]? = some task) :
    w'.tasks[t]? = some task := by
  rw [hStarts.getElem?_of_lt (List.getElem?_eq_some_iff.mp hTask).1, hTask]

/-- A task that is not an old one is one of the new ones. -/
theorem Starts.program_of_le {w' : World} {works : List Work} (hStarts : w.Starts w' works)
    {t : TaskId} {task : Task} (hLe : w.tasks.length ≤ t) (hTask : w'.tasks[t]? = some task) :
    works[t - w.tasks.length]? = some task.work ∧ task.program = task.work.program := by
  rw [hStarts, List.getElem?_append_right hLe, List.getElem?_map] at hTask
  obtain ⟨work, hWork, rfl⟩ := Option.map_eq_some_iff.mp hTask
  exact ⟨hWork, rfl⟩

/-- What a task works on was known before, or it is a new task. -/
theorem Starts.workOf? {w' : World} {works : List Work} (hStarts : w.Starts w' works)
    {t : TaskId} {work : Work} (hWork : w'.workOf? t = some work) :
    w.workOf? t = some work ∨
      w.tasks.length ≤ t ∧ works[t - w.tasks.length]? = some work := by
  obtain ⟨task, hTask, rfl⟩ := Option.map_eq_some_iff.mp hWork
  rcases Nat.lt_or_ge t w.tasks.length with hLt | hGe
  · rw [hStarts.getElem?_of_lt hLt] at hTask
    exact Or.inl (by simp [World.workOf?, hTask])
  · exact Or.inr ⟨hGe, (hStarts.program_of_le hGe hTask).1⟩

/-- Of one new task the number is known. -/
theorem Starts.workOf?_of_one {w' : World} {new : Work} (hStarts : w.Starts w' [new])
    {t : TaskId} {work : Work} (hWork : w'.workOf? t = some work) :
    w.workOf? t = some work ∨ t = w.tasks.length ∧ work = new := by
  refine (hStarts.workOf? hWork).imp_right fun ⟨hGe, hNew⟩ => ?_
  obtain ⟨hIs, rfl⟩ : t - w.tasks.length = 0 ∧ new = work := by
    simpa [List.getElem?_singleton] using hNew
  exact ⟨Nat.le_antisymm (Nat.sub_eq_zero_iff_le.mp hIs) hGe, rfl⟩

theorem Starts.eq_of_le {w' : World} {new : Work} (hStarts : w.Starts w' [new]) {t : TaskId}
    {work : Work} (hLe : w.tasks.length ≤ t) (hWork : w'.workOf? t = some work) :
    t = w.tasks.length ∧ work = new :=
  (hStarts.workOf?_of_one hWork).resolve_left fun hOld =>
    absurd (lt_of_workOf? hOld) (Nat.not_lt.mpr hLe)

/-- The tasks that were there are at the same work. -/
theorem Starts.workOf?_old {w' : World} {works : List Work} (hStarts : w.Starts w' works)
    {t : TaskId} {work : Work} (hWork : w.workOf? t = some work) : w'.workOf? t = some work := by
  rw [World.workOf?, hStarts.getElem?_of_lt (lt_of_workOf? hWork)]
  exact hWork

theorem Starts.workOf?_new {w' : World} {new : Work} (hStarts : w.Starts w' [new]) :
    w'.workOf? w.tasks.length = some new := by
  unfold World.workOf?
  rw [hStarts, List.getElem?_append_right (Nat.le_refl _)]
  simp

theorem starts_start (work : Work) : w.Starts (w.start work).2 [work] := rfl

end World

/-- A world and the steps that led to it, the latest first. -/
structure Moment extends World where
  past : List Label

namespace Moment

variable {m m' m'' : Moment}

/-- A task has got an answer, and the world has become `w`. -/
def act (m : Moment) (t : TaskId) (o : Op) (r : o.Reply) (w : World) : Moment :=
  ⟨w, .act t o r :: m.past⟩

/-- The moment with another program for a task. -/
def goOn (m : Moment) (t : TaskId) (p : Load Outcome) : Moment :=
  ⟨m.toWorld.setProgram t p, m.past⟩

/-- The moment after a piece of work was asked for. -/
def begin (m : Moment) (work : Work) : Moment :=
  ⟨(m.toWorld.start work).2, .start work :: m.past⟩

/-- The module at a path is this one. -/
def Cached (m : Moment) (path : String) (i : Instance) : Prop :=
  m.store.cache.get? path = some i

/-- Something is registered under the key. -/
def Registered (m : Moment) (key : String) : Prop := m.store.registry.contains key = true

/-- What holds for good is still so at the other moment. -/
structure Later (m m' : Moment) : Prop where
  past : ∀ l ∈ m.past, l ∈ m'.past
  size : m.tasks.length ≤ m'.tasks.length
  work : ∀ t work, m.workOf? t = some work → m'.workOf? t = some work
  outcome : ∀ t r, m.outcome? t = some r → m'.outcome? t = some r
  cached : ∀ path i, m.Cached path i → m'.Cached path i
  registered : ∀ key, m.Registered key → m'.Registered key

theorem Later.refl (m : Moment) : Later m m :=
  ⟨fun _ h => h, Nat.le_refl _, fun _ _ h => h, fun _ _ h => h, fun _ _ h => h, fun _ h => h⟩

theorem Later.trans (hFirst : Later m m') (hThen : Later m' m'') : Later m m'' where
  past l hl := hThen.past l (hFirst.past l hl)
  size := Nat.le_trans hFirst.size hThen.size
  work t work hWork := hThen.work t work (hFirst.work t work hWork)
  outcome t r hOutcome := hThen.outcome t r (hFirst.outcome t r hOutcome)
  cached path i hCached := hThen.cached path i (hFirst.cached path i hCached)
  registered key hKey := hThen.registered key (hFirst.registered key hKey)

/-- A task that goes on takes nothing back. -/
theorem later_goOn {t : TaskId} (p : Load Outcome) (hOpen : m.outcome? t = none) :
    Later m (m.goOn t p) where
  past _ hl := hl
  size := by simp [goOn]
  work k work hWork := by simpa [goOn] using hWork
  outcome k r hOutcome := by
    -- A task that is done is not the one that goes on.
    have hNe : k ≠ t := by
      rintro rfl
      simp [hOpen] at hOutcome
    simpa [goOn, World.outcome?, World.getElem?_setProgram_of_ne p hNe] using hOutcome
  cached _ _ hCached := hCached
  registered _ hKey := hKey

/-- New tasks take nothing back, where the store does not. -/
theorem later_of_starts {works : List Work} (hPast : ∀ l ∈ m.past, l ∈ m'.past)
    (hStarts : m.Starts m'.toWorld works)
    (hCached : ∀ path i, m.Cached path i → m'.Cached path i)
    (hRegistered : ∀ key, m.Registered key → m'.Registered key) : Later m m' where
  past := hPast
  size := by rw [hStarts]; simp
  work t work hWork := by
    obtain ⟨task, hTask, rfl⟩ := Option.map_eq_some_iff.mp hWork
    simp [World.workOf?, hStarts.getElem?_of_task hTask]
  outcome t r hOutcome := by
    obtain ⟨work, hTask⟩ := World.outcome?_eq_some_iff.mp hOutcome
    exact World.outcome?_eq_some_iff.mpr ⟨work, hStarts.getElem?_of_task hTask⟩
  cached := hCached
  registered := hRegistered

end Moment

end Bundleless
