import Bundleless.Proofs.Calls

/-! # Timelines

    A call beside the tasks of a page, on a clock. Whatever can go on does so
    within one instant, in any order, and replies and the ends of pauses come
    whenever they like; but no time passes while somebody need not wait. So
    what is there to be done at an instant is done before the next one. The
    schedule is one of these timelines (`Caller.leads_run`), and so whatever
    is shown of all timelines holds of the schedule.
-/

namespace Bundleless

variable {h : Host} {α : Type}

/-! ## Section 1: Instants -/

/-- A call and its world at some time. -/
structure Instant (α : Type) where
  time : Nat
  /-- What is left of the call's program. -/
  program : Load α
  /-- What the call has carried out, the latest first. -/
  own : History
  world : World

/-- Nobody can go on before something comes from outside. -/
def Instant.Rests (h : Host) (m : Instant α) : Prop :=
  m.program.canMove h m.world = false ∧
    ∀ task ∈ m.world.tasks, task.program.canMove h m.world = false

instance (h : Host) (m : Instant α) : Decidable (m.Rests h) := inferInstanceAs (Decidable (_ ∧ _))

/-- One thing that happens to a call: it carries out an operation, or one of the tasks does, or time
    passes, which it does only where all wait. -/
inductive Instant.Step (h : Host) : Instant α → Instant α → Prop
  | own {time : Nat} {o : Op} {next : o.Reply → Load α} {r : o.Reply} {hist : History} {w w' : World}
      (hAnswer : o.Answers h w r w') :
      Step h ⟨time, .ask o next, hist, w⟩ ⟨time, next r, ⟨o, r⟩ :: hist, w'⟩
  | other {time : Nat} {p : Load α} {hist : History} {w w' : World} {label : Label}
      (hStep : World.Step h nothing w label w') : Step h ⟨time, p, hist, w⟩ ⟨time, p, hist, w'⟩
  | wait {m : Instant α} {time : Nat} (hRests : m.Rests h) (hLe : m.time ≤ time) :
      Step h m { m with time := time }

/-- The call has come from one instant to the other, by way of these before it, the latest first. -/
inductive Timeline (h : Host) (m₀ : Instant α) : List (Instant α) → Instant α → Prop
  | refl : Timeline h m₀ [] m₀
  | tail {past : List (Instant α)} {m m' : Instant α} (hTimeline : Timeline h m₀ past m)
      (hStep : m.Step h m') : Timeline h m₀ (m :: past) m'

namespace Instant

variable {m m' : Instant α} {t : TaskId} {x : Outcome}

theorem Step.time_le (hStep : m.Step h m') : m.time ≤ m'.time := by
  cases hStep with
  | own => exact Nat.le_refl _
  | other => exact Nat.le_refl _
  | wait _ hLe => exact hLe

/-- What a task has come to stands. -/
theorem Step.outcome? (hStep : m.Step h m') (hOutcome : m.world.outcome? t = some x) :
    m'.world.outcome? t = some x := by
  cases hStep with
  | own hAnswer =>
    obtain ⟨works, hStarts⟩ := hAnswer.starts
    obtain ⟨work, hTask⟩ := World.outcome?_eq_some_iff.mp hOutcome
    exact World.outcome?_eq_some_iff.mpr ⟨work, hStarts.getElem?_of_task hTask⟩
  | other hStep => exact hStep.outcome? hOutcome
  | wait => exact hOutcome

/-- In a step the call does what is one of its calls. -/
theorem Step.calls (hStep : m.Step h m') : ∃ hist, m'.own = hist ++ m.own ∧
    Load.Calls h m.program m.world hist m'.program m'.world := by
  cases hStep with
  | own hAnswer => exact ⟨_, rfl, .own hAnswer (.refl _ _)⟩
  | other hStep => exact ⟨[], rfl, .other hStep (.refl _ _)⟩
  | wait => exact ⟨[], rfl, .refl _ _⟩

end Instant

/-! ## Section 2: Timelines -/

namespace Timeline

variable {m₀ m m' : Instant α} {past : List (Instant α)}

theorem trans {more : List (Instant α)} (hFirst : Timeline h m₀ past m)
    (hThen : Timeline h m more m') : Timeline h m₀ (more ++ past) m' := by
  induction hThen with
  | refl => exact hFirst
  | tail _ hStep ih => exact ih.tail hStep

/-- A timeline can be cut at every instant before its end. -/
theorem cut (hTimeline : Timeline h m₀ past m) (hMem : m' ∈ past) :
    ∃ before after, Timeline h m₀ before m' ∧ Timeline h m' after m := by
  induction hTimeline with
  | refl => cases hMem
  | @tail past m₁ m hTimeline hStep ih =>
    rcases List.mem_cons.mp hMem with rfl | hMem
    · exact ⟨past, [m'], hTimeline, .tail .refl hStep⟩
    · obtain ⟨before, after, hBefore, hAfter⟩ := ih hMem
      exact ⟨before, m₁ :: after, hBefore, hAfter.tail hStep⟩

/-- The clock does not go back. -/
theorem time_le (hTimeline : Timeline h m₀ past m) : m₀.time ≤ m.time := by
  induction hTimeline with
  | refl => exact Nat.le_refl _
  | tail _ hStep ih => exact Nat.le_trans ih hStep.time_le

theorem time_le_of_mem (hTimeline : Timeline h m₀ past m) (hMem : m' ∈ past) :
    m'.time ≤ m.time := by
  obtain ⟨_, _, -, hAfter⟩ := hTimeline.cut hMem
  exact hAfter.time_le

theorem outcome? {t : TaskId} {x : Outcome} (hTimeline : Timeline h m₀ past m)
    (hOutcome : m₀.world.outcome? t = some x) : m.world.outcome? t = some x := by
  induction hTimeline with
  | refl => exact hOutcome
  | tail _ hStep ih => exact hStep.outcome? ih

/-- What a task has come to at an instant it has come to ever after. -/
theorem stands {t : TaskId} {x : Outcome} (hTimeline : Timeline h m₀ past m) (hMem : m' ∈ past)
    (hOutcome : m'.world.outcome? t = some x) : m.world.outcome? t = some x := by
  obtain ⟨_, _, -, hAfter⟩ := hTimeline.cut hMem
  exact hAfter.outcome? hOutcome

/-- **But for the clock, a timeline is a call.** -/
theorem calls (hTimeline : Timeline h m₀ past m) : ∃ hist, m.own = hist ++ m₀.own ∧
    Load.Calls h m₀.program m₀.world hist m.program m.world := by
  induction hTimeline with
  | refl => exact ⟨[], rfl, .refl _ _⟩
  | tail _ hStep ih =>
    obtain ⟨hist, hOwn, hCalls⟩ := ih
    obtain ⟨more, hMore, hThen⟩ := hStep.calls
    exact ⟨more ++ hist, by rw [hMore, hOwn, List.append_assoc], hCalls.trans hThen⟩

/-- Whoever is done stays so, and carries out nothing any more. -/
theorem of_done {a : α} (hTimeline : Timeline h m₀ past m) (hDone : m₀.program = .done a) :
    m.program = .done a ∧ m.own = m₀.own := by
  obtain ⟨hist, hOwn, hCalls⟩ := hTimeline.calls
  rw [hDone] at hCalls
  obtain ⟨rfl, hStays, -⟩ := hCalls.of_done
  exact ⟨hStays, hOwn⟩

/-- A call that was not done at first got its last answer at some instant. -/
theorem exists_answer {a : α} (hTimeline : Timeline h m₀ past m) (hOpen : m₀.program.result? = none)
    (hDone : m.program = .done a) : ∃ m₁ ∈ past, ∃ o next r w, m₁.program = .ask o next ∧
      o.Answers h m₁.world r w ∧ next r = .done a ∧ m.own = ⟨o, r⟩ :: m₁.own := by
  induction hTimeline with
  | refl =>
    rw [hDone] at hOpen
    cases hOpen
  | tail hTimeline hStep ih =>
    cases hStep with
    | own hAnswer => exact ⟨_, List.mem_cons_self, _, _, _, _, rfl, hAnswer, hDone, rfl⟩
    | other | wait =>
      obtain ⟨m₁, hMem, hRest⟩ := ih hDone
      exact ⟨m₁, List.mem_cons_of_mem _ hMem, hRest⟩

end Timeline

/-! ## Section 3: The schedule -/

/-- The call can come from one instant to the other. -/
def Instant.Leads (h : Host) (m m' : Instant α) : Prop := ∃ past, Timeline h m past m'

namespace Instant.Leads

variable {m m₁ m' : Instant α} {p q : Load α} {w w' : World}

theorem refl (m : Instant α) : Leads h m m := ⟨[], .refl⟩

theorem trans (hFirst : Leads h m m₁) (hThen : Leads h m₁ m') : Leads h m m' := by
  obtain ⟨past, hFirst⟩ := hFirst
  obtain ⟨more, hThen⟩ := hThen
  exact ⟨more ++ past, hFirst.trans hThen⟩

theorem of_step (hStep : m.Step h m') : Leads h m m' := ⟨[m], .tail .refl hStep⟩

/-- What a call can do alone it can do within an instant. -/
theorem of_goes (hGoes : p.Goes h w q w') (time : Nat) (own : History) :
    ∃ hist, Leads h ⟨time, p, own, w⟩ ⟨time, q, hist ++ own, w'⟩ := by
  induction hGoes generalizing own with
  | refl => exact ⟨[], .refl _⟩
  | @step o next r w w₁ w₂ q hAnswer _ ih =>
    obtain ⟨hist, hRest⟩ := ih (⟨o, r⟩ :: own)
    refine ⟨hist ++ [⟨o, r⟩], (of_step (.own hAnswer)).trans ?_⟩
    rw [List.append_assoc]
    exact hRest

/-- And so it is with the tasks. -/
theorem of_leads (hLeads : World.Leads h nothing w w') (time : Nat) (p : Load α) (own : History) :
    Leads h ⟨time, p, own, w⟩ ⟨time, p, own, w'⟩ := by
  obtain ⟨past, hRun⟩ := hLeads
  induction hRun with
  | refl => exact .refl _
  | tail _ hStep ih => exact ih.trans (of_step (.other hStep))

end Instant.Leads

namespace Machine

variable {m : Machine}

/-- Where no task is chosen, none can go on. -/
theorem rests_of_movable? (hNone : m.movable? h = none) {task : Task} (hMem : task ∈ m.world.tasks) :
    task.program.canMove h m.world = false := by
  obtain ⟨t, hLt, rfl⟩ := List.getElem_of_mem hMem
  have hAt := List.findSome?_eq_none_iff.mp hNone _
    (List.mk_mem_zipIdx_iff_getElem?.mpr (List.getElem?_eq_getElem hLt))
  simpa using hAt

/-- Of the first two that are due, the later one does not count. -/
theorem next?_cons_cons (b e : TaskId × Nat) (due : List (TaskId × Nat)) :
    ({ m with due := b :: e :: due } : Machine).next? =
      ({ m with due := (if e.2 < b.2 then e else b) :: due } : Machine).next? := by
  unfold next?
  simp only [List.foldl_cons]
  split <;> rfl

/-- What is due first, if anything is. -/
theorem next?_cases (m : Machine) : (m.next? = none ∧ m.due = []) ∨
    ∃ first ∈ m.due, m.next? = some first ∧ ∀ e ∈ m.due, first.2 ≤ e.2 := by
  have hFrom : ∀ (due : List (TaskId × Nat)) (b : TaskId × Nat), ∃ first ∈ b :: due,
      ({ m with due := b :: due } : Machine).next? = some first ∧ ∀ e ∈ b :: due, first.2 ≤ e.2 := by
    -- What stands first is the earliest one so far, so it differs from step to step.
    intro due
    induction due with
    | nil => exact fun b => ⟨b, by simp, rfl, by simp⟩
    | cons e due ih =>
      intro b
      obtain ⟨first, hMem, hIs, hLe⟩ := ih (if e.2 < b.2 then e else b)
      rw [next?_cons_cons, hIs]
      obtain ⟨hFirst, hRest⟩ := List.forall_mem_cons.mp hLe
      refine ⟨first, ?_, rfl, ?_⟩
      · rcases List.mem_cons.mp hMem with rfl | hIn
        · split <;> simp
        · simp [hIn]
      · simp only [List.forall_mem_cons]
        split at hFirst
        · next hLt => exact ⟨by omega, hFirst, hRest⟩
        · next hNot => exact ⟨hFirst, by omega, hRest⟩
  cases hDue : m.due with
  | nil =>
    left
    unfold next?
    rw [hDue]
    exact ⟨rfl, rfl⟩
  | cons b due =>
    right
    have hAll := hFrom due b
    rw [← hDue] at hAll
    exact hDue ▸ hAll

theorem due_eq_nil (hNone : m.next? = none) : m.due = [] := by
  rcases m.next?_cases with ⟨-, hEmpty⟩ | ⟨first, -, hIs, -⟩
  · exact hEmpty
  · cases hNone.symm.trans hIs

theorem first_of_next? {first : TaskId × Nat} (hNext : m.next? = some first) :
    first ∈ m.due ∧ ∀ e ∈ m.due, first.2 ≤ e.2 := by
  rcases m.next?_cases with ⟨hNone, -⟩ | ⟨first', hMem, hIs, hLe⟩
  · cases hNone.symm.trans hNext
  · obtain rfl : first' = first := Option.some.inj (hIs.symm.trans hNext)
    exact ⟨hMem, hLe⟩

/-- Nobody's turn is over. -/
def OnTime (m : Machine) : Prop := ∀ e ∈ m.due, m.clock ≤ e.2

theorem OnTime.drive (hOnTime : m.OnTime) (t : TaskId) (p : Load Outcome) :
    (m.drive h t p).OnTime := by
  unfold Machine.drive OnTime
  dsimp only
  split
  · next ms hDelay =>
    intro e hMem
    rcases List.mem_append.mp hMem with hMem | hMem
    · exact hOnTime e hMem
    · obtain rfl := List.mem_singleton.mp hMem
      exact Nat.le_add_right _ _
  · exact hOnTime

theorem clock_deliver (m : Machine) (t : TaskId) (time : Nat) : (m.deliver h t time).clock = time := by
  unfold deliver
  dsimp only
  split <;> rfl

theorem onTime_deliver {time : Nat} (hFirst : ∀ e ∈ m.due, time ≤ e.2) (t : TaskId) :
    (m.deliver h t time).OnTime := by
  have hRest : ∀ e ∈ m.due.filter (·.1 != t), time ≤ e.2 :=
    fun e hMem => hFirst e (List.mem_filter.mp hMem).1
  unfold deliver
  dsimp only
  split
  · exact hRest
  · exact OnTime.drive (m := { m with clock := time, due := _, network := _ }) hRest t _

end Machine

namespace Caller

open Instant (Leads)

/-- Where the caller is, and what it has carried out. -/
def instant (c : Caller α) (own : History) : Instant α :=
  ⟨c.machine.clock, c.program, own, c.machine.world⟩

/-- Nobody's turn is over, neither that of a task nor the caller's own. -/
structure OnTime (c : Caller α) : Prop where
  machine : c.machine.OnTime
  own : ∀ time, c.due = some time → c.machine.clock ≤ time

variable {c : Caller α} {own : History}

theorem onTime_drive (hOnTime : c.machine.OnTime) : (c.drive h).OnTime where
  machine := hOnTime
  own time hDue := by
    obtain ⟨ms, -, rfl⟩ := Option.map_eq_some_iff.mp hDue
    exact Nat.le_add_right _ _

theorem leads_drive (c : Caller α) (own : History) :
    ∃ hist, Leads h (c.instant own) ((c.drive h).instant (hist ++ own)) :=
  Leads.of_goes (Load.goes_drive h c.program c.machine.world) _ own

/-- While all wait, the clock moves on to when the caller goes on. -/
theorem leads_deliver {time : Nat} (hRests : (c.instant own).Rests h) (hLe : c.machine.clock ≤ time) :
    ∃ hist, Leads h (c.instant own) ((c.deliver h time).instant (hist ++ own)) := by
  have hGoes := (Load.goes_deliver h c.machine.network c.program c.machine.world).trans
    (Load.goes_drive h (c.program.deliver c.machine.network).1 c.machine.world)
  obtain ⟨hist, hThen⟩ := Leads.of_goes hGoes time own
  exact ⟨hist, (Leads.of_step (.wait hRests hLe)).trans hThen⟩

/-- Or to when a task does. -/
theorem leads_deliver_task {time : Nat} (hRests : (c.instant own).Rests h)
    (hLe : c.machine.clock ≤ time) (t : TaskId) : Leads h (c.instant own)
      (({ c with machine := c.machine.deliver h t time } : Caller α).instant own) := by
  have hThen := Leads.of_leads (Machine.leads_deliver (h := h) (t := t) c.machine time) time c.program own
  unfold instant
  rw [Machine.clock_deliver]
  exact (Leads.of_step (.wait hRests hLe)).trans hThen

theorem leads_step (hOnTime : c.OnTime) (limit : Option Nat) (own : History) :
    (c.step h limit).2.OnTime ∧
      ∃ hist, Leads h (c.instant own) ((c.step h limit).2.instant (hist ++ own)) := by
  have hStays : c.OnTime ∧ ∃ hist, Leads h (c.instant own) (c.instant (hist ++ own)) :=
    ⟨hOnTime, [], .refl _⟩
  unfold step
  split
  · exact ⟨onTime_drive hOnTime.machine, c.leads_drive own⟩
  next hWaits =>
  split
  · next t p hMovable =>
    obtain ⟨work, hTask⟩ := Machine.exists_task_of_movable? hMovable
    exact ⟨⟨hOnTime.machine.drive t p, hOnTime.own⟩, [],
      .of_leads (Machine.leads_drive hTask (.refl _ _)) _ _ _⟩
  next hNone =>
  have hRests : (c.instant own).Rests h :=
    ⟨Bool.not_eq_true _ ▸ hWaits, fun _ => Machine.rests_of_movable? hNone⟩
  have hCaller : ∀ time, c.due = some time → (∀ e ∈ c.machine.due, time ≤ e.2) →
      (c.deliver h time).OnTime ∧
        ∃ hist, Leads h (c.instant own) ((c.deliver h time).instant (hist ++ own)) := by
    intro time hDue hFirst
    exact ⟨onTime_drive hFirst, leads_deliver hRests (hOnTime.own time hDue)⟩
  have hTask : ∀ t time, c.machine.next? = some (t, time) → (∀ mine, c.due = some mine → time ≤ mine) →
      ({ c with machine := c.machine.deliver h t time } : Caller α).OnTime ∧
        ∃ hist, Leads h (c.instant own)
          (({ c with machine := c.machine.deliver h t time } : Caller α).instant (hist ++ own)) := by
    intro t time hNext hOwn
    obtain ⟨hMem, hFirst⟩ := Machine.first_of_next? hNext
    refine ⟨⟨Machine.onTime_deliver hFirst t, fun mine hDue => ?_⟩, [],
      leads_deliver_task hRests (hOnTime.machine _ hMem) t⟩
    rw [Machine.clock_deliver]
    exact hOwn mine hDue
  -- The first one that is due goes on, or the time limit comes before.
  split
  · exact hStays
  · next time hDue hNext =>
    split
    · exact hCaller time hDue fun e hMem => by simp [Machine.due_eq_nil hNext] at hMem
    · exact hStays
  · next t time hDue hNext =>
    split
    · exact hTask t time hNext fun mine hMine => by simp [hDue] at hMine
    · exact hStays
  · next mine t time hDue hNext =>
    split
    · next hMine =>
      split
      · exact hCaller mine hDue fun e hMem =>
          Nat.le_trans hMine ((Machine.first_of_next? hNext).2 e hMem)
      · exact hStays
    · next hLater =>
      split
      · refine hTask t time hNext fun mine' hMine => ?_
        obtain rfl : mine = mine' := Option.some.inj (hDue.symm.trans hMine)
        exact Nat.le_of_not_le hLater
      · exact hStays

/-- **The schedule is one of the timelines.** -/
theorem leads_run (hOnTime : c.OnTime) (limit : Option Nat) (fuel : Nat) (own : History) :
    ∃ hist, Leads h (c.instant own) ((c.run h limit fuel).2.instant (hist ++ own)) := by
  induction fuel generalizing c own with
  | zero => exact ⟨[], .refl _⟩
  | succ fuel ih =>
    obtain ⟨hOnTime', hist, hStep⟩ := leads_step (h := h) hOnTime limit own
    unfold run
    split
    · exact ⟨[], .refl _⟩
    · split
      · next c' hMoved =>
        rw [hMoved] at hOnTime' hStep
        obtain ⟨more, hRest⟩ := ih hOnTime' (hist ++ own)
        rw [← List.append_assoc] at hRest
        exact ⟨more ++ hist, hStep.trans hRest⟩
      · next c' _ hMoved =>
        rw [hMoved] at hStep
        exact ⟨hist, hStep⟩

end Caller

end Bundleless
