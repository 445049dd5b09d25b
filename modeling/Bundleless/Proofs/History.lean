import Bundleless.Proofs.Operation

/-! # Histories

    What a program has carried out so far: its operations with the answers to
    them, the latest first. A program obeys a rule when each of its operations
    is allowed by what it has carried out before, whatever was answered, and
    when what it ends with fits its whole history (`Obeys`). Nothing of this
    depends on the world. Section 4 finds the histories again in runs: what a
    task has done in a run is a history of its program.
-/

namespace Bundleless

/-- An operation and the answer to it. -/
structure Answered where
  op : Op
  reply : op.Reply

/-- What has been carried out, the latest first. -/
abbrev History := List Answered

namespace Load

variable {α β : Type}

/-! ## Section 1: Programs and their histories -/

/-- With such answers the program comes to another one. -/
inductive Came (p : Load α) : History → Load α → Prop
  | start : Came p [] p
  | next {hist : History} {o : Op} {next : o.Reply → Load α} (r : o.Reply)
      (hCame : Came p hist (.ask o next)) : Came p (⟨o, r⟩ :: hist) (next r)

theorem Came.trans {p q q' : Load α} {hist hist' : History} (hFirst : p.Came hist q)
    (hThen : q.Came hist' q') : p.Came (hist' ++ hist) q' := by
  induction hThen with
  | start => exact hFirst
  | next r _ ih => exact .next r ih

theorem Came.ask {o : Op} {next : o.Reply → Load α} (r : o.Reply) {hist : History} {q : Load α}
    (hCame : (next r).Came hist q) : (Load.ask o next).Came (hist ++ [⟨o, r⟩]) q :=
  (Came.next r .start).trans hCame

/-- A program that is done has nothing more to carry out. -/
theorem Came.of_done {a : α} {q : Load α} {hist : History} (hCame : (done a).Came hist q) :
    q = .done a ∧ hist = [] := by
  induction hCame with
  | start => exact ⟨rfl, rfl⟩
  | next r _ ih => cases ih.1

/-- What a program comes to that is done from the beginning. -/
theorem Came.answer_of_done {a b : α} {hist : History} (hCame : (done a).Came hist (done b)) :
    b = a ∧ hist = [] := by
  obtain ⟨hDone, hNone⟩ := hCame.of_done
  exact ⟨Load.done.inj hDone, hNone⟩

/-- A program is at its beginning still, or it has carried out its first operation. -/
theorem Came.ask_cases {o : Op} {next : o.Reply → Load α} {q : Load α} {hist : History}
    (hCame : (Load.ask o next).Came hist q) : (hist = [] ∧ q = .ask o next) ∨
      ∃ r after, hist = after ++ [⟨o, r⟩] ∧ (next r).Came after q := by
  induction hCame with
  | start => exact Or.inl ⟨rfl, rfl⟩
  | @next hist o' next' r _ ih =>
    rcases ih with ⟨rfl, hAsk⟩ | ⟨r₀, after, rfl, hAfter⟩
    · obtain ⟨rfl, hNext⟩ := Load.ask.inj hAsk
      obtain rfl := eq_of_heq hNext
      exact Or.inr ⟨r, [], rfl, .start⟩
    · exact Or.inr ⟨r₀, _, rfl, hAfter.next r⟩

theorem Came.of_ask {o : Op} {next : o.Reply → Load α} {a : α} {hist : History}
    (hCame : (Load.ask o next).Came hist (.done a)) :
    ∃ r after, hist = after ++ [⟨o, r⟩] ∧ (next r).Came after (.done a) :=
  hCame.ask_cases.resolve_left fun ⟨_, hDone⟩ => by cases hDone

/-- What two programs have carried out is a part of the first one's, or all of that and a part of the
    second one's. -/
theorem Came.bind_cases {p : Load α} {f : α → Load β} {q : Load β} {hist : History}
    (hCame : (p >>= f).Came hist q) :
    (∃ p', q = p' >>= f ∧ p.Came hist p') ∨ ∃ a before after, hist = after ++ before ∧
      p.Came before (.done a) ∧ (f a).Came after q := by
  generalize hBoth : p >>= f = both at hCame
  induction hCame with
  | start => exact Or.inl ⟨p, hBoth.symm, .start⟩
  | @next hist o next r hCame ih =>
    rcases ih with ⟨p', hAsk, hFirst⟩ | ⟨a, before, after, rfl, hFirst, hThen⟩
    · cases p' with
      | done a =>
        -- The first program is done, and the operation is the second one's.
        have hAsk : f a = .ask o next := hAsk.symm
        refine Or.inr ⟨a, hist, [⟨o, r⟩], rfl, hFirst, ?_⟩
        rw [hAsk]
        exact .next r .start
      | ask o' next' =>
        obtain ⟨rfl, hNext⟩ := Load.ask.inj hAsk
        obtain rfl := eq_of_heq hNext
        exact Or.inl ⟨next' r, rfl, hFirst.next r⟩
    · exact Or.inr ⟨a, before, ⟨o, r⟩ :: after, rfl, hFirst, hThen.next r⟩

theorem Came.of_bind {p : Load α} {f : α → Load β} {b : β} {hist : History}
    (hCame : (p >>= f).Came hist (.done b)) : ∃ a before after, hist = after ++ before ∧
      p.Came before (.done a) ∧ (f a).Came after (.done b) := by
  rcases hCame.bind_cases with ⟨p', hDone, hFirst⟩ | hBoth
  · cases p' with
    | done a =>
      have hDone : Load.done b = f a := hDone
      exact ⟨a, hist, [], rfl, hFirst, hDone ▸ .start⟩
    | ask o next => cases hDone
  · exact hBoth

/-- What a program carries out it carries out also before another one. -/
theorem Came.before {p q : Load α} {hist : History} (hCame : p.Came hist q) (f : α → Load β) :
    (p >>= f).Came hist (q >>= f) := by
  induction hCame with
  | start => exact .start
  | next r _ ih => exact .next r ih

/-- All of the first program's, and then the second one's. -/
theorem Came.bind {p : Load α} {f : α → Load β} {a : α} {q : Load β} {before after : History}
    (hFirst : p.Came before (.done a)) (hThen : (f a).Came after q) :
    (p >>= f).Came (after ++ before) q :=
  (hFirst.before f).trans hThen

/-! ## Section 2: Programs that use certain operations only -/

/-- Every operation of the program satisfies `P`. -/
inductive Only (P : Op → Prop) : Load α → Prop
  | done (a : α) : Only P (.done a)
  | ask {o : Op} {next : o.Reply → Load α} (hOp : P o) (hNext : ∀ r, Only P (next r)) :
      Only P (.ask o next)

variable {P : Op → Prop}

theorem only_op {o : Op} (hOp : P o) : (op o).Only P :=
  .ask hOp fun r => .done r

theorem Only.bind {p : Load α} {f : α → Load β} (hFirst : p.Only P)
    (hThen : ∀ a, (f a).Only P) : (p >>= f).Only P := by
  induction hFirst with
  | done a => exact hThen a
  | ask hOp _ ih => exact .ask hOp ih

theorem Only.imp {P' : Op → Prop} {p : Load α} (hOnly : p.Only P) (hImp : ∀ o, P o → P' o) :
    p.Only P' := by
  induction hOnly with
  | done a => exact .done a
  | ask hOp _ ih => exact .ask (hImp _ hOp) ih

theorem only_of_forall (hAll : ∀ o, P o) (p : Load α) : p.Only P := by
  induction p with
  | done a => exact .done a
  | ask o next ih => exact .ask (hAll o) ih

/-- The first part of a program uses no other operations than the whole. -/
theorem Only.of_bind {p : Load α} {f : α → Load β} (hOnly : (p >>= f).Only P) : p.Only P := by
  induction p with
  | done a => exact .done a
  | ask o next ih =>
    obtain - | ⟨hOp, hNext⟩ := hOnly
    exact .ask hOp fun r => ih r (hNext r)

theorem Only.came {p q : Load α} {hist : History} (hOnly : p.Only P) (hCame : p.Came hist q) :
    q.Only P := by
  induction hCame with
  | start => exact hOnly
  | next r _ ih =>
    obtain - | ⟨-, hNext⟩ := ih
    exact hNext r

/-! ## Section 3: Programs that obey a rule -/

/-- After the history each operation of the program is allowed by `R`, and its end satisfies `Q`,
    whatever is answered. -/
inductive Obeys (R : History → Op → Prop) (Q : History → α → Prop) : History → Load α → Prop
  | done {hist : History} {a : α} (hDone : Q hist a) : Obeys R Q hist (.done a)
  | ask {hist : History} {o : Op} {next : o.Reply → Load α} (hOp : R hist o)
      (hNext : ∀ r, Obeys R Q (⟨o, r⟩ :: hist) (next r)) : Obeys R Q hist (.ask o next)

variable {R : History → Op → Prop} {Q Q' : History → α → Prop} {hist : History}

theorem Obeys.op {o : Op} {Q : History → o.Reply → Prop} (hOp : R hist o)
    (hNext : ∀ r, Q (⟨o, r⟩ :: hist) r) : (Load.op o).Obeys R Q hist :=
  .ask hOp fun r => .done (hNext r)

theorem Obeys.imp {p : Load α} (hObeys : p.Obeys R Q hist)
    (hImp : ∀ hist a, Q hist a → Q' hist a) : p.Obeys R Q' hist := by
  induction hObeys with
  | done hDone => exact .done (hImp _ _ hDone)
  | ask hOp _ ih => exact .ask hOp ih

theorem Obeys.weaken {R' : History → Op → Prop} {p : Load α} (hObeys : p.Obeys R Q hist)
    (hImp : ∀ hist o, R hist o → R' hist o) : p.Obeys R' Q hist := by
  induction hObeys with
  | done hDone => exact .done hDone
  | ask hOp _ ih => exact .ask (hImp _ _ hOp) ih

/-- What the rule never allows, the program does not use. -/
theorem Obeys.only {p : Load α} (hObeys : p.Obeys R Q hist) (hRule : ∀ hist o, R hist o → P o) :
    p.Only P := by
  induction hObeys with
  | done _ => exact .done _
  | ask hOp _ ih => exact .ask (hRule _ _ hOp) ih

/-- The second program starts from a history that has all of the first one's. -/
theorem Obeys.bind {p : Load α} {f : α → Load β} {Q' : History → β → Prop}
    (hFirst : p.Obeys R Q hist)
    (hThen : ∀ hist' a, hist ⊆ hist' → Q hist' a → (f a).Obeys R Q' hist') :
    (p >>= f).Obeys R Q' hist := by
  induction hFirst with
  | done hDone => exact hThen _ _ (List.Subset.refl _) hDone
  | ask hOp _ ih =>
    refine .ask hOp fun r => ih r fun hist' a hSub hQ => hThen hist' a ?_ hQ
    exact List.Subset.trans (List.subset_cons_self _ _) hSub

/-- **Whatever a program has carried out, what is left of it obeys the rule still.** -/
theorem Obeys.came {p q : Load α} {more : History} (hObeys : p.Obeys R Q hist)
    (hCame : p.Came more q) : q.Obeys R Q (more ++ hist) := by
  induction hCame with
  | start => exact hObeys
  | next r _ ih =>
    obtain - | ⟨-, hNext⟩ := ih
    exact hNext r

/-- What a program is about to carry out is allowed. -/
theorem Obeys.allows {o : Op} {next : o.Reply → Load α} (hObeys : (Load.ask o next).Obeys R Q hist) :
    R hist o := by
  obtain - | ⟨hOp, -⟩ := hObeys
  exact hOp

/-- A program that is done has kept what it owes. -/
theorem Obeys.of_done {a : α} (hObeys : (Load.done a).Obeys R Q hist) : Q hist a := by
  obtain ⟨hDone⟩ := hObeys
  exact hDone

/-- Whatever a program has carried out was allowed by what it had carried out before. -/
theorem Obeys.of_mem {p q : Load α} {more : History} (hObeys : p.Obeys R Q hist)
    (hCame : p.Came more q) {x : Answered} (hMem : x ∈ more) :
    ∃ before, before ⊆ more ∧ R (before ++ hist) x.op := by
  induction hCame with
  | start => cases hMem
  | @next more o next r hCame ih =>
    rcases List.mem_cons.mp hMem with rfl | hMem
    · exact ⟨more, List.subset_cons_self _ _, (hObeys.came hCame).allows⟩
    · obtain ⟨before, hSub, hAllows⟩ := ih hMem
      exact ⟨before, List.Subset.trans hSub (List.subset_cons_self _ _), hAllows⟩

/-- What the rule never allows is not new in the history. -/
theorem Obeys.all {P : Op → Prop} {p : Load α} (hObeys : p.Obeys R Q hist)
    (hRule : ∀ hist o, R hist o → P o) (hAll : ∀ x ∈ hist, P x.op) :
    p.Obeys R (fun hist a => Q hist a ∧ ∀ x ∈ hist, P x.op) hist := by
  induction hObeys with
  | done hDone => exact .done ⟨hDone, hAll⟩
  | ask hOp _ ih =>
    refine .ask hOp fun r => ih r fun x hx => ?_
    rcases List.mem_cons.mp hx with rfl | hx
    · exact hRule _ _ hOp
    · exact hAll x hx

/-- A program whose operations are allowed as long as something holds keeps it, if each of them
    does. -/
theorem Only.keeps {S : History → Prop} {p : Load α} (hOnly : p.Only P)
    (hAllows : ∀ hist o, P o → S hist → R hist o)
    (hKeeps : ∀ hist o (r : o.Reply), P o → S hist → S (⟨o, r⟩ :: hist)) (hInit : S hist) :
    p.Obeys R (fun hist _ => S hist) hist := by
  induction hOnly generalizing hist with
  | done a => exact .done hInit
  | ask hOp _ ih => exact .ask (hAllows _ _ hOp hInit) fun r => ih r (hKeeps _ _ r hOp hInit)

/-- A program whose operations are allowed at any time. -/
theorem Only.obeys {p : Load α} (hOnly : p.Only P) (hAllows : ∀ hist o, P o → R hist o) :
    p.Obeys R (fun _ _ => True) hist :=
  hOnly.keeps (S := fun _ => True) (fun hist o hOp _ => hAllows hist o hOp)
    (fun _ _ _ _ _ => trivial) trivial

/-- Whatever a program has carried out is one of the operations that it uses. -/
theorem Only.of_mem {p q : Load α} (hOnly : p.Only P) (hCame : p.Came hist q) {x : Answered}
    (hMem : x ∈ hist) : P x.op := by
  have hObeys : p.Obeys (fun _ o => P o) (fun _ _ => True) [] := hOnly.obeys fun _ _ hOp => hOp
  obtain ⟨-, -, hAllowed⟩ := hObeys.of_mem hCame hMem
  exact hAllowed

end Load

namespace Attempt

variable {α β : Type} {R : History → Op → Prop} {Q : History → Except Failure α → Prop}
  {Q' : History → Except Failure β → Prop} {hist : History}

/-- What two programs that can fail have carried out ends with the failure of the first one, or is all
    of the first one's and then the second one's. -/
theorem of_came_bind {ε : Type} {p : ExceptT ε Load α} {f : α → ExceptT ε Load β} {r : Except ε β}
    (hCame : (p >>= f).run.Came hist (.done r)) :
    (∃ e, r = .error e ∧ p.run.Came hist (.done (.error e))) ∨
      ∃ a before after, hist = after ++ before ∧ p.run.Came before (.done (.ok a)) ∧
        (f a).run.Came after (.done r) := by
  obtain ⟨result, before, after, rfl, hFirst, hThen⟩ := Load.Came.of_bind hCame
  cases result with
  | ok a => exact Or.inr ⟨a, before, after, rfl, hFirst, hThen⟩
  | error e =>
    obtain ⟨hIs, rfl⟩ := Load.Came.of_done hThen
    exact Or.inl ⟨e, Load.done.inj hIs, hFirst⟩

/-- All operations of the program satisfy `P`. -/
def Only (P : Op → Prop) (p : Attempt α) : Prop := p.run.Only P

section Only

variable {P : Op → Prop}

theorem only_pure (a : α) : Only P (pure a : Attempt α) := Load.Only.done _

theorem only_throw (e : Failure) : Only P (throw e : Attempt α) := Load.Only.done _

theorem Only.bind {p : Attempt α} {f : α → Attempt β} (hFirst : p.Only P)
    (hThen : ∀ a, (f a).Only P) : (p >>= f).Only P := by
  refine Load.Only.bind hFirst fun r => ?_
  cases r with
  | ok a => exact hThen a
  | error e => exact only_throw e

theorem only_lift {p : Load α} (hOnly : p.Only P) : Only P (liftM p : Attempt α) :=
  hOnly.bind fun a => only_pure a

theorem only_mk {p : Load (Except Failure α)} (hOnly : p.Only P) : Only P (ExceptT.mk p) := hOnly

theorem only_outcome {p : Attempt α} (hOnly : p.Only P) : (outcome p).Only P :=
  Load.Only.bind hOnly fun r => only_pure r

end Only

/-- A failure of the first program is one of both. -/
theorem obeys_bind {p : Attempt α} {f : α → Attempt β} (hFirst : p.run.Obeys R Q hist)
    (hError : ∀ hist e, Q hist (.error e) → Q' hist (.error e))
    (hThen : ∀ hist' a, hist ⊆ hist' → Q hist' (.ok a) → (f a).run.Obeys R Q' hist') :
    (p >>= f).run.Obeys R Q' hist := by
  refine Load.Obeys.bind hFirst fun hist' r hSub hQ => ?_
  cases r with
  | ok a => exact hThen hist' a hSub hQ
  | error e => exact .done (hError hist' e hQ)

/-- Where only a success owes anything, a failure of the first program owes nothing. -/
theorem obeys_bind_ok {p : Attempt α} {f : α → Attempt β} {Q' : History → β → Prop}
    (hFirst : p.run.Obeys R Q hist)
    (hThen : ∀ hist' a, hist ⊆ hist' → Q hist' (.ok a) →
      (f a).run.Obeys R (fun hist r => ∀ b, r = .ok b → Q' hist b) hist') :
    (p >>= f).run.Obeys R (fun hist r => ∀ b, r = .ok b → Q' hist b) hist :=
  obeys_bind hFirst (fun _ _ _ _ hIs => by cases hIs) hThen

theorem obeys_ok {b : β} {Q' : History → β → Prop} (hOwes : Q' hist b) :
    (pure b : Attempt β).run.Obeys R (fun hist r => ∀ b, r = .ok b → Q' hist b) hist := by
  refine .done fun b' hIs => ?_
  obtain rfl := Except.ok.inj hIs
  exact hOwes

/-- A part that cannot fail. -/
theorem obeys_lift_bind {p : Load α} {f : α → Attempt β} {Q : History → α → Prop}
    (hFirst : p.Obeys R Q hist)
    (hThen : ∀ hist' a, hist ⊆ hist' → Q hist' a → (f a).run.Obeys R Q' hist') :
    ((liftM p : Attempt α) >>= f).run.Obeys R Q' hist :=
  obeys_bind (Q := fun hist r => match r with | .ok a => Q hist a | .error _ => False)
    (hFirst.bind fun _ _ _ hQ => .done hQ) (fun _ _ hFalse => hFalse.elim) hThen

end Attempt

/-! ## Section 4: Histories in runs -/

/-- What a step has carried out for a task. -/
def Label.own? (t : TaskId) : Label → Option Answered
  | .act k o r => if k = t then some ⟨o, r⟩ else none
  | .start _ => none

/-- The work that is asked for. -/
def Label.started? : Label → Option Work
  | .start work => some work
  | .act .. => none

/-- What a task has carried out. -/
def historyOf (t : TaskId) (past : List Label) : History := past.filterMap (Label.own? t)

theorem mem_historyOf {t : TaskId} {past : List Label} {o : Op} {r : o.Reply} :
    ⟨o, r⟩ ∈ historyOf t past ↔ .act t o r ∈ past := by
  unfold historyOf
  rw [List.mem_filterMap]
  constructor
  · rintro ⟨step, hMem, hOwn⟩
    cases step with
    | start work => simp [Label.own?] at hOwn
    | act k o' r' =>
      simp only [Label.own?] at hOwn
      split at hOwn
      · next hEq =>
        obtain ⟨rfl, hReply⟩ := Answered.mk.inj (Option.some.inj hOwn)
        obtain rfl := eq_of_heq hReply
        exact hEq ▸ hMem
      · simp at hOwn
  · intro hMem
    exact ⟨_, hMem, by simp [Label.own?]⟩

theorem historyOf_act_self (t : TaskId) (o : Op) (r : o.Reply) (past : List Label) :
    historyOf t (.act t o r :: past) = ⟨o, r⟩ :: historyOf t past := by
  simp [historyOf, Label.own?]

theorem historyOf_act_of_ne {t k : TaskId} (hNe : k ≠ t) (o : Op) (r : o.Reply)
    (past : List Label) : historyOf t (.act k o r :: past) = historyOf t past := by
  simp [historyOf, Label.own?, hNe]

theorem historyOf_start (t : TaskId) (work : Work) (past : List Label) :
    historyOf t (.start work :: past) = historyOf t past := rfl

namespace World

variable {h : Host} {asks : Work → Prop} {w₀ w w' : World} {past : List Label} {l : Label}

/-- A step takes no task away. -/
theorem Step.length_le (hStep : Step h asks w l w') : w.tasks.length ≤ w'.tasks.length := by
  have hOf : ∀ {w' : World} {works : List Work}, w.Starts w' works →
      w.tasks.length ≤ w'.tasks.length := by
    intro w' works hStarts
    rw [hStarts, List.length_append]
    exact Nat.le_add_right _ _
  cases hStep with
  | act _ hAnswer =>
    obtain ⟨works, hStarts⟩ := hAnswer.starts
    rw [length_setProgram]
    exact hOf hStarts
  | start => exact hOf (starts_start _)

/-- What a task works on does not change. -/
theorem Step.workOf? (hStep : Step h asks w l w') {t : TaskId} {work : Work}
    (hWork : w.workOf? t = some work) : w'.workOf? t = some work := by
  cases hStep with
  | act _ hAnswer =>
    obtain ⟨works, hStarts⟩ := hAnswer.starts
    rw [workOf?_setProgram]
    exact hStarts.workOf?_old hWork
  | start => exact (starts_start _).workOf?_old hWork

/-- What a task has come to stands. -/
theorem Step.outcome? (hStep : Step h asks w l w') {t : TaskId} {r : Outcome}
    (hOutcome : w.outcome? t = some r) : w'.outcome? t = some r := by
  obtain ⟨work, hTask⟩ := outcome?_eq_some_iff.mp hOutcome
  refine outcome?_eq_some_iff.mpr ⟨work, ?_⟩
  cases hStep with
  | @act w' k work' o next r' hAct hAnswer =>
    obtain ⟨works, hStarts⟩ := hAnswer.starts
    -- Whoever makes a step is not done.
    have hNe : t ≠ k := by
      rintro rfl
      cases hTask.symm.trans hAct
    rw [getElem?_setProgram_of_ne _ hNe]
    exact hStarts.getElem?_of_task hTask
  | start => exact (starts_start _).getElem?_of_task hTask

/-- No task is lost. -/
theorem Run.length_le (hRun : Run h asks w₀ past w) : w₀.tasks.length ≤ w.tasks.length := by
  induction hRun with
  | refl => exact Nat.le_refl _
  | tail _ hStep ih => exact Nat.le_trans ih hStep.length_le

theorem Run.workOf? (hRun : Run h asks w₀ past w) {t : TaskId} {work : Work}
    (hWork : w₀.workOf? t = some work) : w.workOf? t = some work := by
  induction hRun with
  | refl => exact hWork
  | tail _ hStep ih => exact hStep.workOf? ih

theorem Run.outcome? (hRun : Run h asks w₀ past w) {t : TaskId} {r : Outcome}
    (hOutcome : w₀.outcome? t = some r) : w.outcome? t = some r := by
  induction hRun with
  | refl => exact hOutcome
  | tail _ hStep ih => exact hStep.outcome? ih

/-- What has not been started has done nothing. -/
theorem Run.historyOf_eq_nil (hRun : Run h asks w₀ past w) {t : TaskId}
    (hLe : w.tasks.length ≤ t) : historyOf t past = [] := by
  induction hRun with
  | refl => rfl
  | @tail past w w' l _ hStep ih =>
    have hOld : w.tasks.length ≤ t := Nat.le_trans hStep.length_le hLe
    have hNone : historyOf t past = [] := ih hOld
    cases hStep with
    | @act w' k work o next r hTask hAnswer =>
      have hLt : k < w.tasks.length := (List.getElem?_eq_some_iff.mp hTask).1
      have hNe : k ≠ t := Nat.ne_of_lt (Nat.lt_of_lt_of_le hLt hOld)
      rw [historyOf_act_of_ne hNe, hNone]
    | start => rw [historyOf_start, hNone]

/-- A task at a moment of a run, and what it had before it at the start of the run: all of its
    program, if it was not there then. -/
theorem Run.came (hRun : Run h asks w₀ past w) {t : TaskId} {work : Work} {p : Load Outcome}
    (hTask : w.tasks[t]? = some ⟨work, p⟩) :
    ∃ p₀, p₀.Came (historyOf t past) p ∧
      (w₀.tasks[t]? = some ⟨work, p₀⟩ ∨ w₀.tasks.length ≤ t ∧ p₀ = work.program) := by
  induction hRun generalizing work p with
  | refl => exact ⟨p, .start, Or.inl hTask⟩
  | @tail past w w' l hRun hStep ih =>
    -- A task that was there before the step and did not make it has made no step.
    have hOld : ∀ {w' : World} {works : List Work}, w.Starts w' works →
        historyOf t (l :: past) = historyOf t past → w'.tasks[t]? = some ⟨work, p⟩ →
        ∃ p₀, p₀.Came (historyOf t (l :: past)) p ∧
          (w₀.tasks[t]? = some ⟨work, p₀⟩ ∨ w₀.tasks.length ≤ t ∧ p₀ = work.program) := by
      intro w' works hStarts hSame hTask
      rw [hSame]
      rcases Nat.lt_or_ge t w.tasks.length with hLt | hGe
      · rw [hStarts.getElem?_of_lt hLt] at hTask
        exact ih hTask
      · have hIs : p = work.program := (hStarts.program_of_le hGe hTask).2
        refine ⟨work.program, ?_, Or.inr ⟨?_, rfl⟩⟩
        · rw [hIs]
          have hNone : historyOf t past = [] := hRun.historyOf_eq_nil hGe
          rw [hNone]
          exact .start
        · exact Nat.le_trans hRun.length_le hGe
    cases hStep with
    | @act w' k work' o next r hAct hAnswer =>
      obtain ⟨works, hStarts⟩ := hAnswer.starts
      by_cases hEq : k = t
      · subst hEq
        have hAct' := hStarts.getElem?_of_task hAct
        obtain ⟨rfl, rfl⟩ : work' = work ∧ next r = p := by
          simpa using (getElem?_setProgram_self hAct').symm.trans hTask
        obtain ⟨p₀, hCame, hFrom⟩ := ih hAct
        rw [historyOf_act_self]
        exact ⟨p₀, .next r hCame, hFrom⟩
      · rw [getElem?_setProgram_of_ne _ (Ne.symm hEq)] at hTask
        exact hOld hStarts (historyOf_act_of_ne hEq o r past) hTask
    | start hAsks => exact hOld (starts_start _) (historyOf_start t _ past) hTask

theorem Run.asks_of_start {work : Work} (hRun : Run h asks w₀ past w) (hStarted : .start work ∈ past) : asks work := by
  induction hRun with
  | refl => cases hStarted
  | tail _ hStep ih =>
    rcases List.mem_cons.mp hStarted with rfl | hOld
    · cases hStep with
      | start hAsked => exact hAsked
    · exact ih hOld

/-- What was asked for in a run is all that need be allowed. -/
theorem Run.restrict {asks' : Work → Prop} (hRun : Run h asks w₀ past w)
    (hStarts : ∀ work, .start work ∈ past → asks' work) : Run h asks' w₀ past w := by
  induction hRun with
  | refl => exact .refl
  | tail _ hStep ih =>
    have hBefore := ih fun work hMem => hStarts work (List.mem_cons_of_mem _ hMem)
    cases hStep with
    | act hTask hAnswer => exact hBefore.tail (.act hTask hAnswer)
    | start => exact hBefore.tail (.start _ (hStarts _ List.mem_cons_self))

/-- Each step of a run leads from one world of it to the next. -/
theorem Run.exists_step (hRun : Run h asks w₀ past w) (hMem : l ∈ past) :
    ∃ before after v v', past = after ++ l :: before ∧ Run h asks w₀ before v ∧
      Step h asks v l v' ∧ Run h asks v' after w := by
  induction hRun with
  | refl => cases hMem
  | @tail past w w' step hRun hStep ih =>
    rcases List.mem_cons.mp hMem with rfl | hMem
    · exact ⟨past, [], w, w', rfl, hRun, hStep, .refl⟩
    · obtain ⟨before, after, v, v', rfl, hBefore, hAt, hAfter⟩ := ih hMem
      exact ⟨before, step :: after, v, v', rfl, hBefore, hAt, hAfter.tail hStep⟩

/-- Only tasks make steps. -/
theorem Run.exists_work (hRun : Run h asks w₀ past w) {t : TaskId} {o : Op} {r : o.Reply}
    (hAct : .act t o r ∈ past) : ∃ work, w.workOf? t = some work := by
  induction hRun with
  | refl => cases hAct
  | @tail past w w' step _ hStep ih =>
    rcases List.mem_cons.mp hAct with rfl | hOld
    · have hKnown : ∃ work, w.workOf? t = some work := by
        cases hStep with
        | act hTask _ => exact ⟨_, workOf?_of_task hTask⟩
      obtain ⟨work, hWork⟩ := hKnown
      exact ⟨work, hStep.workOf? hWork⟩
    · obtain ⟨work, hWork⟩ := ih hOld
      exact ⟨work, hStep.workOf? hWork⟩

/-- A task that was under way at the start has carried out what its program is made of. -/
theorem Run.only_of_lt {P : Op → Prop} (hRun : Run h asks w₀ past w) {t : TaskId}
    (hOnly : ∀ task, w₀.tasks[t]? = some task → task.program.Only P) (hOld : t < w₀.tasks.length)
    {o : Op} {r : o.Reply} (hAct : .act t o r ∈ past) : P o := by
  obtain ⟨work, hWork⟩ := hRun.exists_work hAct
  obtain ⟨⟨work, p⟩, hTask, rfl⟩ := Option.map_eq_some_iff.mp hWork
  obtain ⟨p₀, hCame, hTask₀ | ⟨hNew, -⟩⟩ := hRun.came hTask
  · have hObeys : p₀.Obeys (fun _ o => P o) (fun _ _ => True) [] :=
      (hOnly _ hTask₀).obeys fun _ _ hOp => hOp
    obtain ⟨-, -, hOp⟩ := hObeys.of_mem hCame (mem_historyOf.mpr hAct)
    exact hOp
  · exact absurd hOld (Nat.not_lt.mpr hNew)

/-! ### Rules in runs -/

variable {R : History → Op → Prop} {Q : History → Outcome → Prop} {t : TaskId} {work : Work}

/-- **In every run, what is left of a piece of work that was begun in it obeys whatever rule its
    program obeys.** -/
theorem Run.obeys_of (hRun : Run h asks w₀ past w) (hObeys : work.program.Obeys R Q [])
    {p : Load Outcome} (hTask : w.tasks[t]? = some ⟨work, p⟩) (hNew : w₀.tasks.length ≤ t) :
    p.Obeys R Q (historyOf t past) := by
  obtain ⟨p₀, hCame, hOld | ⟨-, rfl⟩⟩ := hRun.came hTask
  · exact absurd (List.getElem?_eq_some_iff.mp hOld).1 (Nat.not_lt.mpr hNew)
  · simpa using hObeys.came hCame

/-- Whatever it has carried out was allowed by what it had carried out before. -/
theorem Run.allowed_of (hRun : Run h asks w₀ past w) (hObeys : work.program.Obeys R Q []) {o : Op}
    {r : o.Reply} (hWork : w.workOf? t = some work) (hNew : w₀.tasks.length ≤ t)
    (hAct : .act t o r ∈ past) : ∃ before, before ⊆ historyOf t past ∧ R before o := by
  obtain ⟨⟨work, p⟩, hTask, rfl⟩ := Option.map_eq_some_iff.mp hWork
  obtain ⟨p₀, hCame, hOld | ⟨-, rfl⟩⟩ := hRun.came hTask
  · exact absurd (List.getElem?_eq_some_iff.mp hOld).1 (Nat.not_lt.mpr hNew)
  · obtain ⟨before, hSub, hAllows⟩ := hObeys.of_mem hCame (mem_historyOf.mpr hAct)
    exact ⟨before, hSub, by simpa using hAllows⟩

/-- What it has come to fits all that it has carried out. -/
theorem Run.ends_of (hRun : Run h asks w₀ past w) (hObeys : work.program.Obeys R Q [])
    {r : Outcome} (hWork : w.workOf? t = some work) (hNew : w₀.tasks.length ≤ t)
    (hOutcome : w.outcome? t = some r) : Q (historyOf t past) r := by
  obtain ⟨work', hTask⟩ := outcome?_eq_some_iff.mp hOutcome
  obtain rfl : work' = work := Option.some.inj ((workOf?_of_task hTask).symm.trans hWork)
  exact (hRun.obeys_of hObeys hTask hNew).of_done

end World

end Bundleless
