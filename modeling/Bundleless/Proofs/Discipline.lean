import Bundleless.Proofs.Operation

/-! # Disciplines

    How tasks that share a world are proved right one at a time. A discipline
    says what always holds, what a task may count on while others act, what
    it owes while it is under way and when it is done, and when it may carry
    out an operation. A program is safe when it keeps the discipline whatever
    is answered and whatever the others do in between. Where every step that
    keeps the discipline leaves the others what they count on, every run
    keeps it (`Adequate.run`).
-/

namespace Bundleless

/-- What the tasks of a world agree on. -/
structure Discipline where
  /-- What always holds of the store and the past. -/
  inv : Moment → Prop
  /-- What a task can count on between two of its steps. -/
  rely : TaskId → Moment → Moment → Prop
  /-- What a task finds when it is started. -/
  pre : Work → TaskId → Moment → Prop
  /-- What holds as long as a task is under way. -/
  live : Work → TaskId → Moment → Prop
  /-- What holds for good once a task is done. -/
  post : Work → TaskId → Outcome → Moment → Prop
  /-- When a task may carry out an operation. -/
  may : Work → TaskId → Op → Moment → Prop
  rely_refl : ∀ t m, rely t m m
  rely_trans : ∀ {t m m' m''}, rely t m m' → rely t m' m'' → rely t m m''
  live_stable : ∀ {work t m m'}, rely t m m' → live work t m → live work t m'

namespace Discipline

variable (D : Discipline)

/-! ## Section 1: What holds at a moment -/

/-- A task is under way as it should, or done as it should. -/
def Fits (task : Task) (t : TaskId) (m : Moment) : Prop :=
  match task.program with
  | .done r => D.post task.work t r m
  | .ask _ _ => D.live task.work t m

/-- The discipline is kept at a moment. -/
structure Holds (m : Moment) : Prop where
  inv : D.inv m
  fits : ∀ t task, m.tasks[t]? = some task → D.Fits task t m

/-- What is known of a task that is done. -/
theorem Holds.post {D : Discipline} {m : Moment} {t : TaskId} {work : Work} {r : Outcome}
    (hHolds : D.Holds m) (hWork : m.workOf? t = some work) (hOutcome : m.outcome? t = some r) :
    D.post work t r m := by
  obtain ⟨work', hTask⟩ := World.outcome?_eq_some_iff.mp hOutcome
  obtain rfl : work' = work := by
    simpa [World.workOf?_of_task hTask] using hWork
  exact hHolds.fits t _ hTask

/-! ## Section 2: Safe programs -/

variable (h : Host) (work : Work) (t : TaskId)

/-- Carried out by a task from a moment on, the program keeps the discipline, and what it comes to
    satisfies `Q`, also later. -/
inductive Safe {α : Type} (Q : α → Moment → Prop) : Load α → Moment → Prop
  | done {a : α} {m : Moment} (hDone : ∀ m', D.rely t m m' → Q a m') : Safe Q (.done a) m
  | ask {o : Op} {next : o.Reply → Load α} {m : Moment}
      (hLive : ∀ m', D.rely t m m' → D.live work t m')
      (hMay : ∀ m', D.rely t m m' → D.Holds m' → D.may work t o m')
      (hNext : ∀ m' r w, D.rely t m m' → D.Holds m' → o.Answers h m'.toWorld r w →
        Safe Q (next r) (m'.act t o r w)) : Safe Q (.ask o next) m

/-- What a moment leaves to the next one: the invariant, what the old tasks count on, and what the
    new ones have to find. The task that made the step answers for itself. -/
structure Keeps (stepper : Option TaskId) (m m' : Moment) : Prop where
  inv : D.inv m'
  rely : ∀ k, k < m.tasks.length → some k ≠ stepper → D.rely k m m'
  pre : ∀ k work, m.tasks.length ≤ k → m'.workOf? k = some work → D.pre work k m'

/-- The rules of a discipline fit together: steps that keep it leave the others what they count on,
    and the program of every piece of work keeps it. -/
structure Lawful (asks : Work → Prop) : Prop where
  /-- A task does not notice that it goes on. -/
  goOn : ∀ {t m} p, m.outcome? t = none → D.rely t m (m.goOn t p)
  act : ∀ {t work m o next r w} p, D.Holds m → m.tasks[t]? = some ⟨work, .ask o next⟩ →
    D.may work t o m → o.Answers h m.toWorld r w →
    D.Keeps (some t) m ((m.act t o r w).goOn t p)
  begin : ∀ {m work}, D.Holds m → asks work → D.Keeps none m (m.begin work)
  program : ∀ {work t m}, D.pre work t m → D.Safe h work t (D.post work t) work.program m

variable {D h work t}
variable {asks : Work → Prop} {m m' : Moment}

theorem Safe.mono {α : Type} {Q : α → Moment → Prop} {p : Load α}
    (hSafe : D.Safe h work t Q p m) (hRely : D.rely t m m') : D.Safe h work t Q p m' := by
  -- Everything in `Safe` is asked for at all later moments, and later than later is later.
  cases hSafe with
  | done hDone => exact .done fun m'' hLater => hDone m'' (D.rely_trans hRely hLater)
  | ask hLive hMay hNext =>
    exact .ask (fun m'' hLater => hLive m'' (D.rely_trans hRely hLater))
      (fun m'' hLater => hMay m'' (D.rely_trans hRely hLater))
      fun m'' r w hLater => hNext m'' r w (D.rely_trans hRely hLater)

theorem Safe.imp {α : Type} {Q Q' : α → Moment → Prop} {p : Load α}
    (hSafe : D.Safe h work t Q p m) (hImp : ∀ a m, Q a m → Q' a m) :
    D.Safe h work t Q' p m := by
  induction hSafe with
  | done hDone => exact .done fun m' hRely => hImp _ m' (hDone m' hRely)
  | ask hLive hMay _ ih => exact .ask hLive hMay ih

theorem Safe.bind {α β : Type} {Q : α → Moment → Prop} {R : β → Moment → Prop} {p : Load α}
    {f : α → Load β} (hSafe : D.Safe h work t Q p m)
    (hThen : ∀ a m', Q a m' → D.Safe h work t R (f a) m') :
    D.Safe h work t R (p >>= f) m := by
  -- By induction on the first program; where it is done, the second one takes over.
  induction hSafe with
  | done hDone => exact hThen _ _ (hDone _ (D.rely_refl t _))
  | ask hLive hMay _ ih => exact .ask hLive hMay ih

/-! ## Section 3: Runs -/

variable (D h) in
/-- The discipline is kept at a moment, and will be by the programs of all tasks. -/
structure Adequate (m : Moment) : Prop where
  holds : D.Holds m
  safe : ∀ t task, m.tasks[t]? = some task →
    D.Safe h task.work t (D.post task.work t) task.program m

theorem Safe.fits {task : Task}
    (hSafe : D.Safe h task.work t (D.post task.work t) task.program m) : D.Fits task t m := by
  obtain ⟨work, p⟩ := task
  cases hSafe with
  | done hDone => exact hDone m (D.rely_refl t m)
  | ask hLive _ _ => exact hLive m (D.rely_refl t m)

/-- Where the tasks are safe, they fit. -/
theorem adequate_of_safe (hInv : D.inv m) (hSafe : ∀ t task, m.tasks[t]? = some task →
    D.Safe h task.work t (D.post task.work t) task.program m) : D.Adequate h m :=
  ⟨⟨hInv, fun t task hTask => (hSafe t task hTask).fits⟩, hSafe⟩

/-- What has to be shown of the tasks at the next moment: the task that made the step is safe, the
    old ones are there still, and the new ones have their programs before them. -/
theorem Keeps.adequate {stepper : Option TaskId} (hLaw : D.Lawful h asks)
    (hAdequate : D.Adequate h m) (hKeeps : D.Keeps stepper m m')
    (hOld : ∀ k, k < m.tasks.length → some k ≠ stepper → m'.tasks[k]? = m.tasks[k]?)
    (hNew : ∀ k task, m.tasks.length ≤ k → m'.tasks[k]? = some task →
      task.program = task.work.program)
    (hStepper : ∀ k task, some k = stepper → m'.tasks[k]? = some task →
      D.Safe h task.work k (D.post task.work k) task.program m') : D.Adequate h m' := by
  refine adequate_of_safe hKeeps.inv fun k task hTask => ?_
  by_cases hIs : some k = stepper
  · exact hStepper k task hIs hTask
  · rcases Nat.lt_or_ge k m.tasks.length with hLt | hGe
    · rw [hOld k hLt hIs] at hTask
      exact (hAdequate.safe k task hTask).mono (hKeeps.rely k hLt hIs)
    · rw [hNew k task hGe hTask]
      have hWork : m'.workOf? k = some task.work := by simp [World.workOf?, hTask]
      exact hLaw.program (hKeeps.pre k task.work hGe hWork)

/-- **A step keeps the discipline.** The task that makes it is safe by its program, the others by
    what they count on. -/
theorem Adequate.step {l : Label} {w : World} (hLaw : D.Lawful h asks)
    (hAdequate : D.Adequate h m) (hStep : World.Step h asks m.toWorld l w) :
    D.Adequate h ⟨w, l :: m.past⟩ := by
  cases hStep with
  | @act w t work o next r hTask hAnswer =>
    obtain ⟨works, hStarts⟩ := hAnswer.starts
    have hTask' : w.tasks[t]? = some ⟨work, .ask o next⟩ := hStarts.getElem?_of_task hTask
    obtain - | ⟨-, hMay, hNext⟩ := hAdequate.safe t _ hTask
    have hMay := hMay m (D.rely_refl t m) hAdequate.holds
    have hSafe : D.Safe h work t (D.post work t) (next r) ((m.act t o r w).goOn t (next r)) :=
      (hNext m r w (D.rely_refl t m) hAdequate.holds hAnswer).mono
        (hLaw.goOn (next r) (World.outcome?_of_ask hTask'))
    refine (hLaw.act (next r) hAdequate.holds hTask hMay hAnswer).adequate hLaw hAdequate ?_ ?_ ?_
    -- The other old tasks are as they were.
    · intro k hLt hNe
      have hNe : k ≠ t := fun hEq => hNe (congrArg some hEq)
      exact (World.getElem?_setProgram_of_ne _ hNe).trans (hStarts.getElem?_of_lt hLt)
    -- A task that the operation has started has its whole program before it.
    · intro k task hLe hNew
      have hNe : k ≠ t := by
        have hLt := (List.getElem?_eq_some_iff.mp hTask).1
        omega
      exact (hStarts.program_of_le hLe
        ((World.getElem?_setProgram_of_ne _ hNe).symm.trans hNew)).2
    -- The task that made the step goes on with what is left of its program.
    · intro k task hIs hStepper
      obtain rfl : k = t := Option.some.inj hIs
      obtain rfl : ⟨work, next r⟩ = task :=
        Option.some.inj ((World.getElem?_setProgram_self hTask').symm.trans hStepper)
      exact hSafe
  | @start work hAsks =>
    refine (hLaw.begin hAdequate.holds hAsks).adequate hLaw hAdequate ?_ ?_ ?_
    · exact fun k hLt _ => (World.starts_start work).getElem?_of_lt hLt
    · exact fun k task hLe hNew => ((World.starts_start work).program_of_le hLe hNew).2
    · exact fun k task hIs => by cases hIs

/-- **A run keeps the discipline**, however its steps are interleaved. -/
theorem Adequate.run {w₀ w : World} {past : List Label} (hLaw : D.Lawful h asks)
    (hInit : D.Adequate h ⟨w₀, []⟩) (hRun : World.Run h asks w₀ past w) :
    D.Adequate h ⟨w, past⟩ := by
  induction hRun with
  | refl => exact hInit
  | tail _ hStep ih => exact ih.step hLaw hStep

/-- A task is allowed whatever it does next. -/
theorem Adequate.may {o : Op} {next : o.Reply → Load Outcome} (hAdequate : D.Adequate h m)
    (hTask : m.tasks[t]? = some ⟨work, .ask o next⟩) : D.may work t o m := by
  -- What a safe program does next is allowed now, as now is one of the later moments.
  obtain - | ⟨-, hMay, -⟩ := hAdequate.safe t _ hTask
  exact hMay m (D.rely_refl t m) hAdequate.holds

end Discipline

end Bundleless
