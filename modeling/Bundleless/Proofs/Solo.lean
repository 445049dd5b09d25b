import Bundleless.Proofs.Operation
import Bundleless.World.Schedule

/-! # Programs carried out alone

    A task may go on for several operations while no other one does. As long
    as it is not done, nobody can tell how far its program is: the operations
    answer the same, and so what a program can do alone is a part of a run.
-/

namespace Bundleless

/-! ## Section 1: Programs alone -/

/-- Carried out alone the program can become another one, and with it the world. -/
inductive Load.Goes (h : Host) {α : Type} : Load α → World → Load α → World → Prop
  | refl (p : Load α) (w : World) : Goes h p w p w
  | step {o : Op} {next : o.Reply → Load α} {r : o.Reply} {w w₁ w₂ : World} {q : Load α}
      (hAnswer : o.Answers h w r w₁) (hRest : Goes h (next r) w₁ q w₂) :
      Goes h (.ask o next) w q w₂

namespace Load.Goes

variable {h : Host} {α β : Type} {p q : Load α} {w w₁ w₂ : World}

theorem trans {p₂ : Load α} (hFirst : Goes h p w q w₁) (hThen : Goes h q w₁ p₂ w₂) :
    Goes h p w p₂ w₂ := by
  induction hFirst with
  | refl => exact hThen
  | step hAnswer _ ih => exact .step hAnswer (ih hThen)

theorem bind (hGoes : Goes h p w q w₁) (f : α → Load β) : Goes h (p >>= f) w (q >>= f) w₁ := by
  induction hGoes with
  | refl => exact .refl _ _
  | step hAnswer _ ih => exact .step hAnswer ih

/-- An operation on the store. -/
theorem store {o : StoreOp} {next : o.Reply → Load α}
    (hRest : Goes h (next (o.apply w.store).1) (w.withStore (o.apply w.store).2) q w₁) :
    Goes h (.ask (.store o) next) w q w₁ :=
  .step (.perform rfl) hRest

/-- An operation that only reads the store. -/
theorem read {o : StoreOp} {r : o.Reply} {next : o.Reply → Load α}
    (hApply : o.apply w.store = (r, w.store)) (hRest : Goes h (next r) w q w₁) :
    Goes h (.ask (.store o) next) w q w₁ := by
  refine .step (.perform ?_) hRest
  simp only [Op.perform, hApply]
  rfl

end Load.Goes

/-- What the program has come to, once it is done. -/
def Load.result? {α : Type} : Load α → Option α
  | .done a => some a
  | .ask _ _ => none

theorem Load.result?_eq_some_iff {α : Type} {p : Load α} {a : α} :
    p.result? = some a ↔ p = .done a := by
  cases p <;> simp [result?]

/-! ## Section 2: Nobody can tell -/

namespace World

variable {h : Host} {w w' : World} {t : TaskId} {o : Op} {next : o.Reply → Load Outcome}

theorem setProgram_setProgram (p q : Load Outcome) :
    (w.setProgram t p).setProgram t q = w.setProgram t q := by
  simp [setProgram, List.modify_modify_eq, Function.comp_def]

theorem setProgram_eq_self {work : Work} {p : Load Outcome}
    (hTask : w.tasks[t]? = some ⟨work, p⟩) : w.setProgram t p = w := by
  have hTasks : w.tasks.modify t (fun task => { task with program := p }) = w.tasks := by
    apply List.ext_getElem?
    intro k
    rw [List.getElem?_modify]
    split
    · next hEq => rw [← hEq, hTask]; rfl
    · simp
  simp [setProgram, hTasks]

/-- A task that is not done has come to nothing, whatever its program is. -/
theorem outcome?_setProgram_ask (hOpen : w.outcome? t = none) (k : TaskId) :
    (w.setProgram t (.ask o next)).outcome? k = w.outcome? k := by
  -- Only of `t` itself could anything be told, and before it is done it has no outcome.
  by_cases hEq : k = t
  · subst hEq
    rw [hOpen]
    simp only [outcome?, setProgram, List.getElem?_modify_eq]
    cases w.tasks[k]? <;> rfl
  · simp [outcome?, getElem?_setProgram_of_ne _ hEq]

theorem loaded?_setProgram_ask (hOpen : w.outcome? t = none) (k : TaskId) :
    (w.setProgram t (.ask o next)).loaded? k = w.loaded? k := by
  simp [loaded?, outcome?_setProgram_ask hOpen]

theorem modify_append_of_lt {α : Type} {xs ys : List α} {i : Nat} (f : α → α)
    (hLt : i < xs.length) : (xs ++ ys).modify i f = xs.modify i f ++ ys := by
  apply List.ext_getElem?
  intro k
  rw [List.getElem?_modify]
  rcases Nat.lt_or_ge k xs.length with hOld | hNew
  · rw [List.getElem?_append_left hOld, List.getElem?_append_left (by simpa using hOld),
      List.getElem?_modify]
  · have hNe : i ≠ k := Nat.ne_of_lt (Nat.lt_of_lt_of_le hLt hNew)
    rw [List.getElem?_append_right hNew, List.getElem?_append_right (by simpa using hNew)]
    simp [hNe]

theorem start_setProgram {p : Load Outcome} (hLt : t < w.tasks.length) (work : Work) :
    (w.setProgram t p).start work = ((w.start work).1, (w.start work).2.setProgram t p) := by
  simp only [start, setProgram, List.length_modify, modify_append_of_lt _ hLt]

end World

/-- An operation on the page does not look at the tasks. -/
theorem HostOp.perform_setProgram (h : Host) (w : World) (t : TaskId) (p : Load Outcome)
    (o : HostOp) : o.perform h (w.setProgram t p) =
      ((o.perform h w).1, (o.perform h w).2.setProgram t p) := by
  cases o <;> simp only [perform]
  case compile path source => cases h.compile path source <;> rfl
  case render config app =>
    have hStore : (w.setProgram t p).store = w.store := rfl
    rw [hStore]
    cases h.render config w.store.registry app <;> rfl
  all_goals rfl

variable {h : Host} {w w' : World} {t : TaskId} {o : Op} {next : o.Reply → Load Outcome}

theorem World.log_setProgram (p : Load Outcome) (event : String) (detail : Json) (level : Level) :
    (w.setProgram t p).log event detail level = (w.log event detail level).setProgram t p := by
  have hTelemetry : (w.setProgram t p).telemetry = w.telemetry := rfl
  unfold World.log
  rw [hTelemetry]
  split <;> rfl

/-- **Nobody can tell how far a task is that is not done**: with another program for it every
    operation does the same. -/
theorem Op.perform_setProgram (o' : Op) (hLt : t < w.tasks.length) (hOpen : w.outcome? t = none) :
    o'.perform h (w.setProgram t (.ask o next)) =
      (o'.perform h w).map fun (r, w') => (r, w'.setProgram t (.ask o next)) := by
  have hStore : (w.setProgram t (.ask o next)).store = w.store := rfl
  have hOutcome : (w.setProgram t (.ask o next)).outcome? = w.outcome? :=
    funext fun k => World.outcome?_setProgram_ask hOpen k
  have hLoaded : (w.setProgram t (.ask o next)).loaded? = w.loaded? :=
    funext fun k => World.loaded?_setProgram_ask hOpen k
  cases o' <;> simp only [perform]
  case host o' => rw [HostOp.perform_setProgram]; rfl
  case log event detail level => rw [World.log_setProgram]; rfl
  case spawn work => rw [World.start_setProgram hLt]; rfl
  -- A stage is joined by the table, which has the same entries.
  case shareResolve loader basePath =>
    rw [hStore]
    split
    · rfl
    · rw [World.start_setProgram hLt]; rfl
  case shareExecute loader path source =>
    rw [hStore]
    split
    · rfl
    · split
      · rfl
      · rw [World.start_setProgram hLt]; rfl
  case await k => rw [hLoaded, Option.map_map]; rfl
  case allOk ts => rw [hOutcome, Option.map_map]; rfl
  case allDone ts => rw [hLoaded, Option.map_map]; rfl
  all_goals rfl

theorem Op.Answers.setProgram {o' : Op} {r : o'.Reply} (hAnswer : o'.Answers h w r w')
    (hLt : t < w.tasks.length) (hOpen : w.outcome? t = none) :
    o'.Answers h (w.setProgram t (.ask o next)) r (w'.setProgram t (.ask o next)) := by
  cases hAnswer with
  | reply method url r => exact .reply method url r
  | wake ms => exact .wake ms
  | perform hPerform =>
    refine .perform ?_
    rw [Op.perform_setProgram o' hLt hOpen, hPerform]
    rfl

/-! ## Section 3: Parts of runs -/

namespace World

variable {asks : Work → Prop}

/-- A run can be continued by another one. -/
theorem Run.append {w₀ : World} {past more : List Label} (hRun : Run h asks w₀ past w)
    (hMore : Run h asks w more w') : Run h asks w₀ (more ++ past) w' := by
  induction hMore with
  | refl => exact hRun
  | tail _ hStep ih => exact ih.tail hStep

variable (h asks) in
/-- A run can lead from one world to the other. -/
def Leads (w w' : World) : Prop := ∃ past, Run h asks w past w'

theorem Leads.refl (w : World) : Leads h asks w w := ⟨[], .refl⟩

theorem Leads.trans {w₁ : World} (hFirst : Leads h asks w w₁) (hThen : Leads h asks w₁ w') :
    Leads h asks w w' := by
  obtain ⟨past, hRun⟩ := hFirst
  obtain ⟨more, hMore⟩ := hThen
  exact ⟨more ++ past, hRun.append hMore⟩

theorem Leads.of_step {l : Label} (hStep : Step h asks w l w') : Leads h asks w w' :=
  ⟨[l], .tail .refl hStep⟩

variable (asks) in
/-- **What a program can do alone is a part of a run**, if it is the program of a task: of one in which
    no other task makes a step. -/
theorem Run.of_goes {work : Work} {p q : Load Outcome} (hTask : w.tasks[t]? = some ⟨work, p⟩)
    (hGoes : p.Goes h w q w') : ∃ past, Run h asks w past (w'.setProgram t q) ∧
      ∀ step ∈ past, ∃ o r, step = .act t o r := by
  -- The world of the run has the program as it stands, and the world of `hGoes` the one it had.
  suffices hFrom : ∀ p₀, w.tasks[t]? = some ⟨work, p₀⟩ → (p₀ = p ∨ w.outcome? t = none) →
      ∃ past, Run h asks (w.setProgram t p) past (w'.setProgram t q) ∧
        ∀ step ∈ past, ∃ o r, step = .act t o r by
    have hRun := hFrom p hTask (Or.inl rfl)
    rwa [setProgram_eq_self hTask] at hRun
  clear hTask
  induction hGoes with
  | refl => exact fun _ _ _ => ⟨[], .refl, fun step hMem => nomatch hMem⟩
  | @step o next r w w₁ w₂ q hAnswer hRest ih =>
    intro p₀ hTask hOpen
    have hLt : t < w.tasks.length := (List.getElem?_eq_some_iff.mp hTask).1
    have hOpen : w.outcome? t = none := by
      rcases hOpen with rfl | hOpen
      · exact outcome?_of_ask hTask
      · exact hOpen
    obtain ⟨works, hStarts⟩ := hAnswer.starts
    have hTask₁ := hStarts.getElem?_of_task hTask
    have hStep : Step h asks (w.setProgram t (.ask o next)) (.act t o r)
        ((w₁.setProgram t (.ask o next)).setProgram t (next r)) :=
      .act (getElem?_setProgram_self hTask) (hAnswer.setProgram hLt hOpen)
    rw [setProgram_setProgram] at hStep
    have hOpen₁ : w₁.outcome? t = none := by
      rw [World.outcome?, hTask₁, ← hTask]
      exact hOpen
    obtain ⟨past, hRun, hAlone⟩ := ih p₀ hTask₁ (Or.inr hOpen₁)
    refine ⟨past ++ [.act t o r], (Run.tail .refl hStep).append hRun, ?_⟩
    intro step hMem
    rcases List.mem_append.mp hMem with hMem | hMem
    · exact hAlone step hMem
    · exact ⟨o, r, List.mem_singleton.mp hMem⟩

theorem Leads.of_goes {work : Work} {p q : Load Outcome} (hTask : w.tasks[t]? = some ⟨work, p⟩)
    (hGoes : p.Goes h w q w') : Leads h asks w (w'.setProgram t q) := by
  obtain ⟨past, hRun, -⟩ := Run.of_goes asks hTask hGoes
  exact ⟨past, hRun⟩

/-- The same, for a world that a run has led to. -/
theorem Leads.carry {w₀ : World} {work : Work} {p q : Load Outcome}
    (hLeads : Leads h asks w₀ w) (hTask : w.tasks[t]? = some ⟨work, p⟩)
    (hGoes : p.Goes h w q w') : ∃ w'', Leads h asks w₀ w'' ∧ w''.store = w'.store ∧
      w''.tasks = w'.tasks.modify t fun task => { task with program := q } :=
  ⟨w'.setProgram t q, hLeads.trans (.of_goes hTask hGoes), rfl, rfl⟩

end World

/-! ## Section 4: Schedules -/

/-- To drive a program is to carry it out alone. -/
theorem Load.goes_drive {α : Type} (h : Host) (p : Load α) (w : World) :
    p.Goes h w (p.drive h w).1 (p.drive h w).2 := by
  induction p generalizing w with
  | done a => exact .refl _ _
  | ask o next ih =>
    unfold drive
    split
    · next r w₁ hPerform => exact .step (.perform hPerform) (ih r w₁)
    · exact .refl _ _

/-- To deliver what a program waits for is to answer it from outside. -/
theorem Load.goes_deliver {α : Type} (h : Host) (n : Network) (p : Load α) (w : World) :
    p.Goes h w (p.deliver n).1 w := by
  unfold deliver
  split
  · next method url next => exact .step (.reply method url _) (.refl _ _)
  · next ms next => exact .step (.wake ms) (.refl _ _)
  · exact .refl _ _

namespace Machine

variable {asks : Work → Prop}

theorem leads_drive {m : Machine} {work : Work} {p q : Load Outcome}
    (hTask : m.world.tasks[t]? = some ⟨work, p⟩) (hGoes : p.Goes h m.world q m.world) :
    World.Leads h asks m.world (m.drive h t q).world :=
  .of_goes hTask (hGoes.trans (Load.goes_drive h q m.world))

theorem leads_deliver (m : Machine) (time : Nat) :
    World.Leads h asks m.world (m.deliver h t time).world := by
  unfold deliver
  dsimp only
  split
  · exact .refl _
  · next task hTask => exact leads_drive hTask (Load.goes_deliver h m.network task.program _)

/-- The task that is chosen is one of the world's. -/
theorem exists_task_of_movable? {m : Machine} {p : Load Outcome}
    (hMovable : m.movable? h = some (t, p)) : ∃ work, m.world.tasks[t]? = some ⟨work, p⟩ := by
  obtain ⟨⟨task, k⟩, hMem, hIs⟩ := List.exists_of_findSome?_eq_some hMovable
  dsimp only at hIs
  split at hIs
  · obtain ⟨rfl, rfl⟩ := Prod.mk.inj (Option.some.inj hIs)
    exact ⟨task.work, (List.mem_zipIdx_iff_getElem?.mp hMem)⟩
  · simp at hIs

/-- One thing that happens while nobody calls. -/
theorem leads_step (m : Machine) (limit : Option Nat) :
    World.Leads h asks m.world (Caller.step h limit
      ({ machine := m, program := .done () } : Caller Unit)).2.machine.world := by
  unfold Caller.step
  simp only [Load.canMove, Bool.false_eq_true, if_false]
  split
  · next k p hMovable =>
    obtain ⟨work, hTask⟩ := exists_task_of_movable? hMovable
    exact leads_drive hTask (.refl _ _)
  · split
    · exact .refl _
    · next hDue _ => simp at hDue
    · split
      · exact leads_deliver m _
      · exact .refl _
    · next hDue _ => simp at hDue

/-- **The schedule is one of the runs**: whatever is left behind and runs to its end makes only
    steps that tasks can make. -/
theorem leads_settle (m : Machine) (fuel : Nat) :
    World.Leads h asks m.world (m.settle h fuel).world := by
  induction fuel generalizing m with
  | zero => exact .refl _
  | succ fuel ih =>
    have hStep : World.Leads h asks m.world _ := leads_step m none
    unfold settle
    dsimp only
    split
    · next c hMoved =>
      rw [hMoved] at hStep
      exact hStep.trans (ih c.machine)
    · next c _ hMoved =>
      rw [hMoved] at hStep
      exact hStep

end Machine

end Bundleless
