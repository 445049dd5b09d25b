import Bundleless.Proofs.Conduct
import Bundleless.Proofs.Solo

/-! # Calls

    A program that is carried out beside the tasks of a page: between two of
    its own operations the tasks take steps, in any order, and start further
    tasks. A call of two programs, one after the other, is a call of the
    first and then one of the second. What startup alone does to a page no
    task ever does, so of that a call can tell from its own operations.
-/

namespace Bundleless

/-! ## Section 1: Programs beside tasks -/

/-- Nothing is asked for from outside. -/
abbrev nothing : Work → Prop := fun _ => False

/-- Beside the tasks the program can become another one, and with it the world, and this is what it
    carries out itself, the latest first. -/
inductive Load.Calls (h : Host) {α : Type} : Load α → World → History → Load α → World → Prop
  | refl (p : Load α) (w : World) : Calls h p w [] p w
  | own {o : Op} {next : o.Reply → Load α} {r : o.Reply} {w w₁ w₂ : World} {q : Load α}
      {hist : History} (hAnswer : o.Answers h w r w₁) (hRest : Calls h (next r) w₁ hist q w₂) :
      Calls h (.ask o next) w (hist ++ [⟨o, r⟩]) q w₂
  | other {p q : Load α} {step : Label} {w w₁ w₂ : World} {hist : History}
      (hStep : World.Step h nothing w step w₁) (hRest : Calls h p w₁ hist q w₂) :
      Calls h p w hist q w₂

namespace Load.Calls

variable {h : Host} {α β : Type} {p q : Load α} {w w₁ w' : World} {hist : History}

theorem trans {p' : Load α} {hist' : History} (hFirst : Calls h p w hist q w₁)
    (hThen : Calls h q w₁ hist' p' w') : Calls h p w (hist' ++ hist) p' w' := by
  induction hFirst with
  | refl => simpa using hThen
  | own hAnswer _ ih =>
    rw [← List.append_assoc]
    exact .own hAnswer (ih hThen)
  | other hStep _ ih => exact .other hStep (ih hThen)

/-- The tasks go on while the program waits, or after it is done. -/
theorem of_leads (p : Load α) (hLeads : World.Leads h nothing w w') : Calls h p w [] p w' := by
  obtain ⟨past, hRun⟩ := hLeads
  induction hRun with
  | refl => exact .refl _ _
  | tail _ hStep ih => exact ih.trans (.other hStep (.refl _ _))

theorem of_goes (hGoes : p.Goes h w q w') : ∃ hist, Calls h p w hist q w' := by
  induction hGoes with
  | refl => exact ⟨[], .refl _ _⟩
  | step hAnswer _ ih =>
    obtain ⟨hist, hRest⟩ := ih
    exact ⟨_, .own hAnswer hRest⟩

/-- A call of the first program is one of both. -/
theorem bind (hCalls : Calls h p w hist q w') (f : α → Load β) :
    Calls h (p >>= f) w hist (q >>= f) w' := by
  induction hCalls with
  | refl => exact .refl _ _
  | own hAnswer _ ih => exact .own hAnswer ih
  | other hStep _ ih => exact .other hStep ih

/-- What a program has carried out in a call is one of its histories. -/
theorem came (hCalls : Calls h p w hist q w') : p.Came hist q := by
  induction hCalls with
  | refl => exact .start
  | own _ _ ih => exact ih.ask _
  | other _ _ ih => exact ih

/-! ### Inversion -/

/-- A program that is done does nothing any more. -/
theorem of_done {a : α} (hCalls : Calls h (.done a) w hist q w') :
    hist = [] ∧ q = .done a ∧ World.Leads h nothing w w' := by
  generalize hDone : Load.done a = p at hCalls
  induction hCalls with
  | refl => exact ⟨rfl, rfl, .refl _⟩
  | own => cases hDone
  | other hStep _ ih =>
    obtain ⟨hNone, hIs, hLeads⟩ := ih hDone
    exact ⟨hNone, hIs, (World.Leads.of_step hStep).trans hLeads⟩

/-- A program waits for the answer to its next operation, or it has got one, at some moment. -/
theorem ask_cases {o : Op} {next : o.Reply → Load α} (hCalls : Calls h (.ask o next) w hist q w') :
    (hist = [] ∧ q = .ask o next ∧ World.Leads h nothing w w') ∨
      ∃ w₁ r w₂ hist', World.Leads h nothing w w₁ ∧ o.Answers h w₁ r w₂ ∧
        Calls h (next r) w₂ hist' q w' ∧ hist = hist' ++ [⟨o, r⟩] := by
  generalize hAsk : Load.ask o next = p at hCalls
  induction hCalls with
  | refl => exact Or.inl ⟨rfl, rfl, .refl _⟩
  | own hAnswer hRest =>
    obtain ⟨rfl, hNext⟩ := Load.ask.inj hAsk
    obtain rfl := eq_of_heq hNext
    exact Or.inr ⟨_, _, _, _, .refl _, hAnswer, hRest, rfl⟩
  | other hStep _ ih =>
    rcases ih hAsk with ⟨hNone, hIs, hLeads⟩ | ⟨w₁, r, w₂, hist', hLeads, hRest⟩
    · exact Or.inl ⟨hNone, hIs, (World.Leads.of_step hStep).trans hLeads⟩
    · exact Or.inr ⟨w₁, r, w₂, hist', (World.Leads.of_step hStep).trans hLeads, hRest⟩

/-- Before a program is done its next operation is answered, at some moment. -/
theorem of_ask {o : Op} {next : o.Reply → Load α} {a : α}
    (hCalls : Calls h (.ask o next) w hist (.done a) w') :
    ∃ w₁ r w₂ hist', World.Leads h nothing w w₁ ∧ o.Answers h w₁ r w₂ ∧
      Calls h (next r) w₂ hist' (.done a) w' ∧ hist = hist' ++ [⟨o, r⟩] := by
  rcases hCalls.ask_cases with ⟨-, hIs, -⟩ | hAnswered
  · cases hIs
  · exact hAnswered

/-- A call of two programs is one of the first alone, or a call of the first and then one of the
    second. -/
theorem bind_cases {f : α → Load β} {q : Load β} (hCalls : Calls h (p >>= f) w hist q w') :
    (∃ p', q = p' >>= f ∧ Calls h p w hist p' w') ∨
      ∃ a before after w₁, hist = after ++ before ∧ Calls h p w before (.done a) w₁ ∧
        Calls h (f a) w₁ after q w' := by
  generalize hBoth : p >>= f = both at hCalls
  induction hCalls generalizing p with
  | refl => exact Or.inl ⟨p, hBoth.symm, .refl _ _⟩
  | @own o next r w w₁ w₂ q hist hAnswer hRest ih =>
    cases p with
    | done a =>
      have hAsk : f a = .ask o next := hBoth
      refine Or.inr ⟨a, [], hist ++ [⟨o, r⟩], w, (List.append_nil _).symm, .refl _ _, ?_⟩
      rw [hAsk]
      exact .own hAnswer hRest
    | ask o' next' =>
      obtain ⟨rfl, hNext⟩ := Load.ask.inj hBoth
      obtain rfl : (fun r => next' r >>= f) = next := eq_of_heq hNext
      rcases ih rfl with ⟨p', hIs, hFirst⟩ | ⟨a, before, after, w₃, rfl, hFirst, hThen⟩
      · exact Or.inl ⟨p', hIs, .own hAnswer hFirst⟩
      · exact Or.inr ⟨a, before ++ [⟨o', r⟩], after, w₃, by rw [List.append_assoc],
          .own hAnswer hFirst, hThen⟩
  | other hStep _ ih =>
    rcases ih hBoth with ⟨p', hIs, hFirst⟩ | ⟨a, before, after, w₃, hHist, hFirst, hThen⟩
    · exact Or.inl ⟨p', hIs, .other hStep hFirst⟩
    · exact Or.inr ⟨a, before, after, w₃, hHist, .other hStep hFirst, hThen⟩

/-- **A call of two programs is a call of the first, and then one of the second.** -/
theorem of_bind {f : α → Load β} {b : β} (hCalls : Calls h (p >>= f) w hist (.done b) w') :
    ∃ a before after w₁, hist = after ++ before ∧ Calls h p w before (.done a) w₁ ∧
      Calls h (f a) w₁ after (.done b) w' := by
  rcases hCalls.bind_cases with ⟨p', hDone, hFirst⟩ | hBoth
  · cases p' with
    | done a =>
      have hDone : Load.done b = f a := hDone
      exact ⟨a, hist, [], w', rfl, hFirst, hDone ▸ .refl _ _⟩
    | ask o next => cases hDone
  · exact hBoth

end Load.Calls

/-- A call of two programs that can fail ends with the failure of the first one, or goes on with the
    second one. -/
theorem Attempt.of_calls_bind {h : Host} {α β : Type} {p : Attempt α} {f : α → Attempt β}
    {w w' : World} {hist : History} {r : Except Failure β}
    (hCalls : Load.Calls h (p >>= f).run w hist (.done r) w') :
    (∃ e, r = .error e ∧ Load.Calls h p.run w hist (.done (.error e)) w') ∨
      ∃ a before after w₁, hist = after ++ before ∧
        Load.Calls h p.run w before (.done (.ok a)) w₁ ∧
        Load.Calls h (f a).run w₁ after (.done r) w' := by
  obtain ⟨result, before, after, w₁, rfl, hFirst, hThen⟩ := Load.Calls.of_bind hCalls
  cases result with
  | ok a => exact Or.inr ⟨a, before, after, w₁, rfl, hFirst, hThen⟩
  | error e =>
    obtain ⟨rfl, hIs, hLeads⟩ := Load.Calls.of_done hThen
    obtain rfl := Load.done.inj hIs
    exact Or.inl ⟨e, rfl, hFirst.trans (.of_leads _ hLeads)⟩

theorem Attempt.of_calls_map {h : Host} {α β : Type} {p : Attempt α} {f : α → β} {w w' : World}
    {hist : History} {r : Except Failure β}
    (hCalls : Load.Calls h (do return f (← p) : Attempt β).run w hist (.done r) w') :
    ∃ r', r = r'.map f ∧ Load.Calls h p.run w hist (.done r') w' := by
  rcases of_calls_bind hCalls with ⟨e, rfl, hFails⟩ | ⟨a, before, after, w₁, rfl, hFirst, hThen⟩
  · exact ⟨.error e, rfl, hFails⟩
  · obtain ⟨rfl, hDone, hLeads⟩ := Load.Calls.of_done (a := Except.ok (f a)) hThen
    exact ⟨.ok a, Load.done.inj hDone, hFirst.trans (.of_leads _ hLeads)⟩

/-! ## Section 2: What only startup does -/

/-- What startup alone does to a page: to paint it and to show a failure, to note that it has failed,
    to set the configuration, and to start afresh. -/
def Op.isReserved : Op → Bool
  | .store (.setConfig _) | .store .clear | .host (.render ..) | .host (.showError ..) => true
  | .log event .. => event == startupFailed
  | _ => false

/-- No piece of work does any of this. -/
theorem Work.Allows.not_isReserved {work : Work} {hist : History} {o : Op}
    (hAllows : work.Allows hist o) : o.isReserved = false := by
  cases o with
  | log event detail level => exact beq_eq_false_iff_ne.mpr hAllows
  | store o =>
    cases o with
    | setConfig c => exact hAllows.elim
    | clear => exact hAllows.elim
    | _ => rfl
  | host o =>
    cases o with
    | render config app => exact hAllows.elim
    | showError rootId message => exact hAllows.elim
    | _ => rfl
  | _ => rfl

/-- What can be seen of the outcome of a startup: the paint, or the failure that is shown and
    noted. -/
def Happening.isVerdict : Happening → Bool
  | .rendered .. | .shown .. => true
  | .logged e => e.name == startupFailed
  | _ => false

namespace World

/-- The verdicts so far, the latest first. -/
def verdicts (w : World) : List Happening := w.trace.filter Happening.isVerdict

/-- Between the two worlds no verdict has been passed, and nothing has changed on which one depends:
    the configuration is the same, and nothing has been taken out of the registry. -/
structure Unjudged (w w' : World) : Prop where
  verdicts : w'.verdicts = w.verdicts
  config : w'.store.config = w.store.config
  href : w'.telemetry.href = w.telemetry.href
  registered : ∀ key, w.store.registry.contains key = true →
    w'.store.registry.contains key = true

theorem Unjudged.refl (w : World) : w.Unjudged w := ⟨rfl, rfl, rfl, fun _ hKey => hKey⟩

theorem Unjudged.trans {w w₁ w' : World} (hFirst : w.Unjudged w₁) (hThen : w₁.Unjudged w') :
    w.Unjudged w' where
  verdicts := hThen.verdicts.trans hFirst.verdicts
  config := hThen.config.trans hFirst.config
  href := hThen.href.trans hFirst.href
  registered key hKey := hThen.registered key (hFirst.registered key hKey)

theorem verdicts_note {w : World} {x : Happening} (hNot : x.isVerdict = false) :
    (w.note x).verdicts = w.verdicts := by
  simp [verdicts, note, hNot]

theorem unjudged_note (w : World) {x : Happening} (hNot : x.isVerdict = false) :
    w.Unjudged (w.note x) := ⟨verdicts_note hNot, rfl, rfl, fun _ hKey => hKey⟩

theorem unjudged_log (w : World) {event : String} (detail : Json) (level : Level)
    (hEvent : event ≠ startupFailed) : w.Unjudged (w.log event detail level) := by
  unfold log
  split
  · next e hIs =>
    refine unjudged_note w ?_
    unfold Telemetry.event? at hIs
    split at hIs
    · obtain rfl := Option.some.inj hIs
      exact beq_eq_false_iff_ne.mpr hEvent
    · cases hIs
  · exact .refl w

/-- Tasks may come, and the store may change but for its configuration and its registry. -/
theorem Unjudged.of_eq {w w' : World} (hTrace : w'.trace = w.trace)
    (hTelemetry : w'.telemetry.href = w.telemetry.href)
    (hConfig : w'.store.config = w.store.config)
    (hRegistry : w'.store.registry = w.store.registry) : w.Unjudged w' :=
  ⟨congrArg (List.filter _) hTrace, hConfig, hTelemetry, fun _ hKey => hRegistry ▸ hKey⟩

end World

theorem StoreOp.unjudged_apply (w : World) {o : StoreOp} (hNot : (Op.store o).isReserved = false) :
    w.Unjudged (w.withStore (o.apply w.store).2) := by
  cases o with
  | register key i =>
    refine ⟨rfl, rfl, rfl, fun k hKey => ?_⟩
    simpa [apply, World.withStore, Registry.contains_insert] using Or.inr hKey
  | setConfig c => cases hNot
  | clear => cases hNot
  | _ => exact .of_eq rfl rfl rfl rfl

theorem HostOp.unjudged_perform (h : Host) (w : World) {o : HostOp}
    (hNot : (Op.host o).isReserved = false) : w.Unjudged (o.perform h w).2 := by
  cases o with
  | inject url => exact (World.unjudged_note w rfl).trans (.of_eq rfl rfl rfl rfl)
  | importModule url => exact (World.unjudged_note w rfl).trans (.of_eq rfl rfl rfl rfl)
  | compile path source =>
    unfold perform
    dsimp only
    split
    · exact World.unjudged_note w rfl
    · exact .refl w
  | execute m => exact World.unjudged_note w rfl
  | compileStyle source => exact .refl w
  | injectCss css => exact World.unjudged_note w rfl
  | render config app => cases hNot
  | showError rootId message => cases hNot

/-- **An operation that is not reserved passes no verdict.** -/
theorem Op.Answers.unjudged {h : Host} {w w' : World} {o : Op} {r : o.Reply}
    (hAnswer : o.Answers h w r w') (hNot : o.isReserved = false) : w.Unjudged w' := by
  cases hAnswer.becomes with
  | same => exact .refl w
  | store o => exact StoreOp.unjudged_apply w hNot
  | host o => exact HostOp.unjudged_perform h w hNot
  | send method url => exact World.unjudged_note w rfl
  | log event detail level =>
    exact World.unjudged_log w detail level (beq_eq_false_iff_ne.mp hNot)
  | setVerbose | spawn | startResolve | startExecute => exact .of_eq rfl rfl rfl rfl

/-! ### How a verdict is passed -/

theorem World.verdicts_note_of_isVerdict {w : World} {x : Happening} (hIs : x.isVerdict = true) :
    (w.note x).verdicts = x :: w.verdicts := by
  simp [verdicts, note, hIs]

/-- The renderer decides; only a paint that succeeds can be seen. -/
theorem Op.Answers.render {h : Host} {w w' : World} {config : RenderConfig} {app : Instance}
    {r : Except Failure Unit} (hAnswer : (Op.host (.render config app)).Answers h w r w') :
    r = h.render config w.store.registry app ∧
      (r = .ok () ∧ w' = w.note (.rendered config.rootId app) ∨ ∃ e, r = .error e ∧ w' = w) := by
  cases hAnswer with
  | perform hPerform =>
    simp only [Op.perform, HostOp.perform, Option.some.injEq] at hPerform
    split at hPerform
    · next hRender =>
      obtain ⟨rfl, rfl⟩ := Prod.mk.inj hPerform
      exact ⟨hRender.symm, Or.inl ⟨rfl, rfl⟩⟩
    · next e hRender =>
      obtain ⟨rfl, rfl⟩ := Prod.mk.inj hPerform
      exact ⟨hRender.symm, Or.inr ⟨e, rfl, rfl⟩⟩

theorem Op.Answers.showError {h : Host} {w w' : World} {rootId message : String} {u : Unit}
    (hAnswer : (Op.host (.showError rootId message)).Answers h w u w') :
    w' = w.note (.shown rootId message) := by
  cases hAnswer with
  | perform hPerform => exact (congrArg Prod.snd (Option.some.inj hPerform)).symm

/-- A fault is always noted. -/
theorem Op.Answers.logError {h : Host} {w w' : World} {event : String} {detail : Json} {u : Unit}
    (hAnswer : (Op.log event detail .error).Answers h w u w') :
    w' = w.note (.logged ⟨event, detail, .error, w.telemetry.href⟩) := by
  cases hAnswer with
  | perform hPerform => exact (congrArg Prod.snd (Option.some.inj hPerform)).symm

/-! ## Section 3: Tasks pass no verdict -/

namespace World

variable {h : Host} {asks : Work → Prop} {w w' : World} {label : Label}

/-- What is left of every task obeys the rule of its work. -/
def Conducts (w : World) : Prop := ∀ (t : TaskId) (work : Work) (p : Load Outcome),
  w.tasks[t]? = some ⟨work, p⟩ → ∃ hist, p.Obeys work.Allows (fun _ _ => True) hist

/-- Tasks that are started have the programs of their work. -/
theorem Conducts.starts {works : List Work} (hConducts : w.Conducts) (hStarts : w.Starts w' works) :
    w'.Conducts := by
  intro t work p hTask
  rcases Nat.lt_or_ge t w.tasks.length with hLt | hGe
  · rw [hStarts.getElem?_of_lt hLt] at hTask
    exact hConducts t work p hTask
  · have hProgram : p = work.program := (hStarts.program_of_le hGe hTask).2
    exact ⟨[], hProgram ▸ work.obeys.imp fun _ _ _ => trivial⟩

theorem Conducts.answers {o : Op} {r : o.Reply} (hConducts : w.Conducts)
    (hAnswer : o.Answers h w r w') : w'.Conducts := by
  obtain ⟨works, hStarts⟩ := hAnswer.starts
  exact hConducts.starts hStarts

theorem Conducts.step (hConducts : w.Conducts) (hStep : Step h asks w label w') : w'.Conducts := by
  cases hStep with
  | @act w' t work o next r hTask hAnswer =>
    obtain ⟨works, hStarts⟩ := hAnswer.starts
    have hTask' := hStarts.getElem?_of_task hTask
    intro k work' p hAt
    by_cases hEq : k = t
    · subst hEq
      obtain ⟨rfl, rfl⟩ : work = work' ∧ next r = p := by
        simpa using (getElem?_setProgram_self hTask').symm.trans hAt
      obtain ⟨hist, hObeys⟩ := hConducts k work _ hTask
      obtain - | ⟨-, hNext⟩ := hObeys
      exact ⟨_, hNext r⟩
    · rw [getElem?_setProgram_of_ne _ hEq] at hAt
      exact hConducts.starts hStarts k work' p hAt
  | start => exact hConducts.starts (starts_start _)

/-- **A step of a task passes no verdict.** -/
theorem Conducts.unjudged (hConducts : w.Conducts) (hStep : Step h asks w label w') :
    w.Unjudged w' := by
  cases hStep with
  | @act w' t work o next r hTask hAnswer =>
    obtain ⟨hist, hObeys⟩ := hConducts t work _ hTask
    exact (hAnswer.unjudged hObeys.allows.not_isReserved).trans (.of_eq rfl rfl rfl rfl)
  | start => exact .of_eq rfl rfl rfl rfl

theorem Conducts.leads (hConducts : w.Conducts) (hLeads : Leads h asks w w') :
    w.Unjudged w' ∧ w'.Conducts := by
  obtain ⟨past, hRun⟩ := hLeads
  induction hRun with
  | refl => exact ⟨.refl w, hConducts⟩
  | tail _ hStep ih => exact ⟨ih.1.trans (ih.2.unjudged hStep), ih.2.step hStep⟩

end World

/-- Nothing reserved is done. -/
abbrev Discreetly : History → Op → Prop := fun _ o => o.isReserved = false

theorem basicRule_discreetly : BasicRule Discreetly where
  remote {hist o} hRemote := by
    cases o with
    | log event detail level => exact beq_eq_false_iff_ne.mpr (bne_iff_ne.mp hRemote)
    | store o =>
      cases o with
      | setConfig c => cases hRemote
      | clear => cases hRemote
      | _ => rfl
    | host o =>
      cases o with
      | render config app => cases hRemote
      | showError rootId message => cases hRemote
      | _ => rfl
    | _ => rfl
  compile := rfl
  execute := rfl
  allOk _ := rfl
  allDone _ := rfl

/-- **In a call of a program that does nothing reserved no verdict is passed.** What it comes to
    is what it owes. -/
theorem Load.Calls.discreet {h : Host} {α : Type} {p : Load α} {a : α} {w w' : World}
    {hist : History} {Q : History → α → Prop} (hCalls : Calls h p w hist (.done a) w')
    (hObeys : p.Obeys Discreetly Q []) (hConducts : w.Conducts) :
    w.Unjudged w' ∧ w'.Conducts ∧ (∀ x ∈ hist, x.op.isReserved = false) ∧ Q hist a := by
  have hOwes : Q (hist ++ []) a := (hObeys.came hCalls.came).of_done
  rw [List.append_nil] at hOwes
  suffices hAll : w.Unjudged w' ∧ w'.Conducts ∧ ∀ x ∈ hist, x.op.isReserved = false from
    ⟨hAll.1, hAll.2.1, hAll.2.2, hOwes⟩
  clear hOwes
  -- From any point of the call on, whatever was done before.
  generalize [] = before at hObeys
  generalize Load.done a = q at hCalls
  induction hCalls generalizing before with
  | refl => exact ⟨.refl _, hConducts, fun _ hMem => by cases hMem⟩
  | own hAnswer _ ih =>
    obtain - | ⟨hNot, hNext⟩ := hObeys
    obtain ⟨hUnjudged, hConducts', hHist⟩ := ih (hConducts.answers hAnswer) _ (hNext _)
    exact ⟨(hAnswer.unjudged hNot).trans hUnjudged, hConducts',
      List.forall_mem_append.mpr ⟨hHist, List.forall_mem_singleton.mpr hNot⟩⟩
  | other hStep _ ih =>
    obtain ⟨hUnjudged, hRest⟩ := ih (hConducts.step hStep) _ hObeys
    exact ⟨(hConducts.unjudged hStep).trans hUnjudged, hRest⟩

/-! ## Section 4: Schedules -/

namespace Caller

open Load (Calls)

variable {h : Host} {α : Type}

theorem calls_drive (c : Caller α) : ∃ hist,
    Calls h c.program c.machine.world hist (c.drive h).program (c.drive h).machine.world :=
  Calls.of_goes (Load.goes_drive h c.program c.machine.world)

theorem calls_deliver (c : Caller α) (time : Nat) : ∃ hist, Calls h c.program c.machine.world hist
    (c.deliver h time).program (c.deliver h time).machine.world :=
  Calls.of_goes <| (Load.goes_deliver h c.machine.network c.program _).trans
    (Load.goes_drive h (c.program.deliver c.machine.network).1 _)

/-- What a machine does for its tasks is done beside the program. -/
theorem calls_of_leads (c : Caller α) {m : Machine}
    (hLeads : World.Leads h nothing c.machine.world m.world) :
    ∃ hist, Calls h c.program c.machine.world hist c.program m.world :=
  ⟨[], .of_leads c.program hLeads⟩

theorem calls_step (c : Caller α) (limit : Option Nat) : ∃ hist,
    Calls h c.program c.machine.world hist (c.step h limit).2.program
      (c.step h limit).2.machine.world := by
  have hStays : ∃ hist, Calls h c.program c.machine.world hist c.program c.machine.world :=
    ⟨[], .refl _ _⟩
  unfold step
  split
  · exact c.calls_drive
  split
  · next t p hMovable =>
    obtain ⟨work, hTask⟩ := Machine.exists_task_of_movable? hMovable
    exact c.calls_of_leads (Machine.leads_drive hTask (.refl _ _))
  -- What waits for something from outside is given it, or the time limit comes before.
  split
  · exact hStays
  · split
    · exact c.calls_deliver _
    · exact hStays
  · split
    · exact c.calls_of_leads (Machine.leads_deliver _ _)
    · exact hStays
  · split
    · split
      · exact c.calls_deliver _
      · exact hStays
    · split
      · exact c.calls_of_leads (Machine.leads_deliver _ _)
      · exact hStays

/-- **The schedule is one of the calls.** -/
theorem calls_run (c : Caller α) (limit : Option Nat) (fuel : Nat) : ∃ hist,
    Calls h c.program c.machine.world hist (c.run h limit fuel).2.program
      (c.run h limit fuel).2.machine.world := by
  induction fuel generalizing c with
  | zero => exact ⟨[], .refl _ _⟩
  | succ fuel ih =>
    obtain ⟨hist, hStep⟩ := c.calls_step (h := h) limit
    unfold run
    split
    · exact ⟨[], .refl _ _⟩
    · split
      · next c' hMoved =>
        rw [hMoved] at hStep
        obtain ⟨more, hRest⟩ := ih c'
        exact ⟨_, hStep.trans hRest⟩
      · next p c' _ hEnds =>
        rw [hEnds] at hStep
        exact ⟨hist, hStep⟩

end Caller

namespace Machine

variable {h : Host} {α : Type}

theorem run_eq (m : Machine) (p : Load α) (limit : Option Nat) :
    m.run h p limit =
      let c := (((⟨m, p, none⟩ : Caller α).drive h).run h (limit.map (m.clock + ·)) patience).2
      match c.result?, limit with
      | none, some ms => ⟨none, ms, { c.machine with clock := m.clock + ms }⟩
      | r, _ => ⟨r, c.machine.clock - m.clock, c.machine⟩ := rfl

/-- What a machine answers is what a call has come to. -/
theorem calls_run {m : Machine} {p : Load α} {limit : Option Nat} {a : α}
    (hResult : (m.run h p limit).result = some a) :
    ∃ hist, Load.Calls h p m.world hist (.done a) (m.run h p limit).machine.world := by
  let first : Caller α := ⟨m, p, none⟩
  obtain ⟨hist, hDrive⟩ := first.calls_drive (h := h)
  obtain ⟨more, hRest⟩ := (first.drive h).calls_run (h := h) (limit.map (m.clock + ·)) patience
  have hCalls := hDrive.trans hRest
  rw [run_eq] at hResult ⊢
  dsimp only at hResult ⊢
  generalize (Caller.run h (limit.map (m.clock + ·)) patience (first.drive h)).2 = last
    at hCalls hResult ⊢
  cases hLast : last.result? with
  | none =>
    rw [hLast] at hResult
    cases limit <;> cases hResult
  | some b =>
    rw [hLast] at hResult
    obtain rfl := Option.some.inj hResult
    have hDone : last.program = .done b := by
      unfold Caller.result? at hLast
      split at hLast
      · next hIs => rw [hIs, Option.some.inj hLast]
      · cases hLast
    exact ⟨_, hDone ▸ hCalls⟩

end Machine

end Bundleless
