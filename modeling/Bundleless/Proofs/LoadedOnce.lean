import Bundleless.Proofs.Bindings

/-! # Modules under rules are loaded once each, or once for each who misses them

    Whoever asks for the name of a module under a rule looks into the
    registry first. What is there is taken; else the module is loaded, and
    nobody else learns of this before it is registered. So a module is loaded
    as often as its name is looked up in vain, and that this happens once
    only is up to those who ask.
-/

namespace Bundleless

/-! ## Section 1: What a name is asked for -/

/-- The name that a task asks for, where it is not that of a local module. -/
def World.requested? (w : World) (t : TaskId) : Option String :=
  (w.workOf? t).bind Work.remoteName?

/-- A script is handed to the page, by a task that asks for the name. -/
def Label.isScriptFor (w : World) (name : String) : Label → Bool
  | .act t o _ => o.isScript && decide (w.requested? t = some name)
  | .start _ => false

/-- A task that asks for the name has looked it up, and nothing was there. -/
def World.Misses (w : World) (past : List Label) (name : String) (t : TaskId) : Prop :=
  w.requested? t = some name ∧ .act t (.store (.registered name)) none ∈ past

/-- The page was handed a script for the name at most once, and all who have got a module by the name
    have got the one that `require` gives. -/
structure World.LoadedOnce (h : Host) (past : List Label) (w : World) (name : String) : Prop where
  once : past.countP (·.isScriptFor w name) ≤ 1
  same : ∀ t x, w.requested? t = some name → w.outcome? t = some (.ok x) →
    ∃ i, x = some ⟨name, i⟩ ∧ (Load.require name).run.drive h w = (.done (.ok i), w)

/-- Nobody who is under way asks for the name, or registers anything under it. -/
structure World.Unasked (w : World) (name : String) : Prop where
  unrequested : ∀ t, w.requested? t ≠ some name
  spared : w.Spared name

/-! ## Section 2: What one task does for a name -/

/-- For a name at most one script is handed to the page, and at most one module is registered. -/
structure History.Tidy (hist : History) : Prop where
  scripts : hist.countP (·.op.isScript) ≤ 1
  registers : ∀ key i, ⟨.store (.register key i), ()⟩ ∈ hist → hist.RegistersOnly i

/-- Where no script was handed over there is none to be counted. -/
theorem History.countP_of_not_scripted {hist : History} (hNone : ¬ hist.Scripted) :
    hist.countP (·.op.isScript) = 0 := by
  rw [List.countP_eq_zero]
  intro x hMem hScript
  exact hNone ⟨x, hMem, hScript⟩

/-- Work by a name does not look for a local module. -/
theorem Work.localRequest?_of_remoteName? {work : Work} {name : String}
    (hName : work.remoteName? = some name) : work.localRequest? = none := by
  obtain ⟨l, job⟩ := work
  cases job with
  | member spec dir | call spec dir =>
    by_cases hLocal : (l.hasLocal && LocalPath.isLocal spec) = true
    · have hNone : (if l.hasLocal && LocalPath.isLocal spec then none else some spec) = some name :=
        hName
      rw [if_pos hLocal] at hNone
      cases hNone
    · exact if_neg hLocal
  | _ => cases hName

/-- Who asks for a name registers what it loads for it, and only if the name was not there. -/
theorem Work.Registers.missed {work : Work} {hist : History} {name key : String} {i : Instance}
    (hRegisters : work.Registers hist key i) (hName : work.remoteName? = some name) :
    hist.Missed name ∧ hist.RegistersOnly i := by
  cases hRegisters with
  | path source hJob _ =>
    obtain ⟨l, job⟩ := work
    obtain rfl : job = .execute key source := hJob
    cases hName
  | specifier dir hRequest =>
    rw [Work.localRequest?_of_remoteName? hName] at hRequest
    cases hRequest
  | rule name' r hName' hMissed _ _ _ hOnly =>
    obtain rfl : name' = name := Option.some.inj (hName'.symm.trans hName)
    exact ⟨hMissed, hOnly⟩

theorem Load.Came.tidy {work : Work} {name : String} {p : Load Outcome} {hist : History}
    (hCame : work.program.Came hist p) (hName : work.remoteName? = some name) : hist.Tidy := by
  induction hCame with
  | start => exact ⟨Nat.zero_le _, fun key i hMem => absurd hMem List.not_mem_nil⟩
  | @next hist o next r hCame ih =>
    have hAllows : work.Publishes hist o := by
      have hObeys := work.publishes.came hCame
      rw [List.append_nil] at hObeys
      exact hObeys.allows
    constructor
    · by_cases hScript : o.isScript = true
      -- A script is handed over only if there was none before.
      · have hNone : ¬ hist.Scripted := by
          unfold Op.isScript at hScript
          split at hScript
          · exact (hAllows name hName).2
          · exact (hAllows name hName).2
          · cases hScript
        rw [List.countP_cons, History.countP_of_not_scripted hNone]
        split <;> omega
      · rw [List.countP_cons_of_neg (by exact hScript)]
        exact ih.scripts
    · -- A module is registered only if no other one was registered before.
      by_cases hRegister : ∃ key i, o = .store (.register key i)
      · obtain ⟨key, i, rfl⟩ := hRegister
        have hOnly := (Work.Registers.missed hAllows hName).2.register key
        intro key' j hMem
        rw [hOnly key' j hMem]
        exact hOnly
      · have hOld : ∀ {key i}, ⟨.store (.register key i), ()⟩ ∈ (⟨o, r⟩ :: hist : History) →
            ⟨.store (.register key i), ()⟩ ∈ hist := by
          intro key i hMem
          rcases List.mem_cons.mp hMem with hEq | hMem
          · exact absurd ⟨key, i, (Answered.mk.inj hEq).1.symm⟩ hRegister
          · exact hMem
        intro key i hMem key' j hMem'
        exact ih.registers key i (hOld hMem) key' j (hOld hMem')

/-! ## Section 3: All tasks -/

namespace World

variable {h : Host} {asks : Work → Prop} {w₀ w : World} {past : List Label} {name : String}

/-- Who asks for the name has been begun since, and this is the work. -/
theorem Unasked.of_requested (hUnasked : w₀.Unasked name) (hRun : Run h asks w₀ past w)
    {t : TaskId} (hRequested : w.requested? t = some name) :
    ∃ work, w.workOf? t = some work ∧ work.remoteName? = some name ∧ w₀.tasks.length ≤ t := by
  obtain ⟨work, hWork, hName⟩ := Option.bind_eq_some_iff.mp hRequested
  refine ⟨work, hWork, hName, Nat.not_lt.mp fun hOld => ?_⟩
  obtain ⟨task, hTask⟩ : ∃ task, w₀.tasks[t]? = some task :=
    ⟨_, List.getElem?_eq_getElem hOld⟩
  have hOldWork : w₀.workOf? t = some task.work := by simp [workOf?, hTask]
  have hSame := hRun.workOf? hOldWork
  rw [hWork] at hSame
  obtain rfl := Option.some.inj hSame
  refine hUnasked.unrequested t ?_
  rw [requested?, hOldWork]
  exact hName

/-- A task that asks for the name is tidy. -/
theorem Unasked.tidy (hUnasked : w₀.Unasked name) (hRun : Run h asks w₀ past w) {t : TaskId}
    (hRequested : w.requested? t = some name) : (historyOf t past).Tidy := by
  obtain ⟨work, hWork, hName, hNew⟩ := hUnasked.of_requested hRun hRequested
  obtain ⟨⟨work', p⟩, hTask, rfl⟩ := Option.map_eq_some_iff.mp hWork
  obtain ⟨p₀, hCame, hOld | ⟨-, rfl⟩⟩ := hRun.came hTask
  · exact absurd (List.getElem?_eq_some_iff.mp hOld).1 (Nat.not_lt.mpr hNew)
  · exact hCame.tidy hName

/-- Who asks for the name and registers something has missed it. -/
theorem Unasked.misses_of_register (hUnasked : w₀.Unasked name) (hRun : Run h asks w₀ past w)
    {t : TaskId} {key : String} {i : Instance} (hRequested : w.requested? t = some name)
    (hAct : .act t (.store (.register key i)) () ∈ past) : w.Misses past name t := by
  obtain ⟨work, hWork, hName, hNew⟩ := hUnasked.of_requested hRun hRequested
  obtain ⟨before, hSub, hRegisters⟩ := hRun.allowed_of work.publishes hWork hNew hAct
  have hMissed := (Work.Registers.missed hRegisters hName).1
  exact ⟨hRequested, mem_historyOf.mp (hSub hMissed)⟩

/-- Who asks for the name and hands a script to the page has missed it. -/
theorem Unasked.misses_of_script (hUnasked : w₀.Unasked name) (hRun : Run h asks w₀ past w)
    {step : Label} (hMem : step ∈ past) (hScript : step.isScriptFor w name = true) :
    ∃ t o r, step = .act t o r ∧ o.isScript = true ∧ w.Misses past name t := by
  cases step with
  | start work => cases hScript
  | act t o r =>
    obtain ⟨hOp, hRequested⟩ := Bool.and_eq_true_iff.mp hScript
    have hRequested := of_decide_eq_true hRequested
    obtain ⟨work, hWork, hName, hNew⟩ := hUnasked.of_requested hRun hRequested
    obtain ⟨before, hSub, hPublishes⟩ := hRun.allowed_of work.publishes hWork hNew hMem
    have hMissed : before.Missed name := by
      unfold Op.isScript at hOp
      split at hOp
      · exact (hPublishes name hName).1
      · exact (hPublishes name hName).1
      · cases hOp
    exact ⟨t, o, r, rfl, hOp, hRequested, mem_historyOf.mp (hSub hMissed)⟩

/-- Scripts of one task are counted in its history. -/
theorem countP_isScriptFor_le {t : TaskId}
    (hOne : ∀ step ∈ past, step.isScriptFor w name = true → ∃ o r, step = .act t o r) :
    past.countP (·.isScriptFor w name) ≤ (historyOf t past).countP (·.op.isScript) := by
  induction past with
  | nil => exact Nat.le_refl _
  | cons step past ih =>
    have ih := ih fun step' hMem => hOne step' (List.mem_cons_of_mem _ hMem)
    by_cases hScript : step.isScriptFor w name = true
    · obtain ⟨o, r, rfl⟩ := hOne step List.mem_cons_self hScript
      have hOp : o.isScript = true := (Bool.and_eq_true_iff.mp hScript).1
      rw [historyOf_act_self, List.countP_cons_of_pos (by exact hScript),
        List.countP_cons_of_pos (by exact hOp)]
      omega
    · rw [List.countP_cons_of_neg (by exact hScript)]
      have hLe : (historyOf t past).countP (·.op.isScript) ≤
          (historyOf t (step :: past)).countP (·.op.isScript) :=
        List.Sublist.countP_le ((List.sublist_cons_self step past).filterMap _)
      omega

/-! ## Section 4: Missed once, loaded once -/

section

variable (hUnasked : w₀.Unasked name) (hRun : Run h asks w₀ past w)
include hUnasked hRun

/-- Who has got something by the name has found it, or has loaded it. -/
theorem Unasked.obtains {t : TaskId} {x : Option Loaded} (hRequested : w.requested? t = some name)
    (hOutcome : w.outcome? t = some (.ok x)) : ∃ i, x = some ⟨name, i⟩ ∧
      (⟨.store (.registered name), some i⟩ ∈ historyOf t past ∧ ¬ (historyOf t past).Missed name ∨
        (historyOf t past).Supplies name i) := by
  obtain ⟨work, hWork, hName, hNew⟩ := hUnasked.of_requested hRun hRequested
  exact hRun.ends_of work.publishes hWork hNew hOutcome name x hName rfl

/-- Who has missed the name and has got something all the same has handed over a script. -/
theorem Unasked.exists_script {t : TaskId} {x : Option Loaded} (hMisses : w.Misses past name t)
    (hOutcome : w.outcome? t = some (.ok x)) :
    ∃ o r, .act t o r ∈ past ∧ (Label.act t o r).isScriptFor w name = true := by
  obtain ⟨i, -, hFound | hSupplies⟩ := hUnasked.obtains hRun hMisses.1 hOutcome
  · exact absurd (mem_historyOf.mpr hMisses.2) hFound.2
  · obtain ⟨⟨o, r⟩, hMem, hScript⟩ := hSupplies.scripted
    have hFor : (Label.act t o r).isScriptFor w name = true :=
      Bool.and_eq_true_iff.mpr ⟨hScript, decide_eq_true hMisses.1⟩
    exact ⟨o, r, mem_historyOf.mp hMem, hFor⟩

/-- Where all who ask have got something, each of those who have missed the name has handed over a
    script of its own. -/
theorem Unasked.missed_once
    (hDone : ∀ t, w.requested? t = some name → ∃ x, w.outcome? t = some (.ok x))
    (hLe : past.countP (·.isScriptFor w name) ≤ 1) {j k : TaskId} (hJ : w.Misses past name j)
    (hK : w.Misses past name k) : j = k := by
  obtain ⟨x, hOutcome⟩ := hDone j hJ.1
  obtain ⟨y, hOutcome'⟩ := hDone k hK.1
  obtain ⟨o, r, hMem, hScript⟩ := hUnasked.exists_script hRun hJ hOutcome
  obtain ⟨o', r', hMem', hScript'⟩ := hUnasked.exists_script hRun hK hOutcome'
  have hFirst := List.mem_filter.mpr ⟨hMem, hScript⟩
  have hSecond := List.mem_filter.mpr ⟨hMem', hScript'⟩
  rw [List.countP_eq_length_filter] at hLe
  rcases hFilter : past.filter (·.isScriptFor w name) with _ | ⟨step, _ | ⟨_, _⟩⟩
  · rw [hFilter] at hFirst
    cases hFirst
  · rw [hFilter, List.mem_singleton] at hFirst hSecond
    injection hFirst.trans hSecond.symm
  · rw [hFilter, List.length_cons, List.length_cons] at hLe
    omega

variable (hOnce : ∀ j k, w.Misses past name j → w.Misses past name k → j = k)
include hOnce

/-- All scripts for the name were handed over by the one task that has missed it. -/
theorem Unasked.countP_le_one : past.countP (·.isScriptFor w name) ≤ 1 := by
  by_cases hSome : ∃ step ∈ past, step.isScriptFor w name = true
  · obtain ⟨step, hMem, hScript⟩ := hSome
    obtain ⟨t, o, r, -, -, hMisses⟩ := hUnasked.misses_of_script hRun hMem hScript
    have hOne : ∀ step ∈ past, step.isScriptFor w name = true → ∃ o r, step = .act t o r := by
      intro step' hMem' hScript'
      obtain ⟨t', o', r', rfl, -, hMisses'⟩ := hUnasked.misses_of_script hRun hMem' hScript'
      exact ⟨o', r', by rw [hOnce t' t hMisses' hMisses]⟩
    have hTidy := hUnasked.tidy hRun hMisses.1
    exact Nat.le_trans (countP_isScriptFor_le hOne) hTidy.scripts
  · have hNone : past.countP (·.isScriptFor w name) = 0 := by
      rw [List.countP_eq_zero]
      exact fun step hMem hScript => hSome ⟨step, hMem, hScript⟩
    omega

variable
  (hOnly : ∀ t i, .act t (.store (.register name i)) () ∈ past → w.requested? t = some name)
include hOnly

/-- All that is registered under the name is one module. -/
theorem Unasked.lastRegistered? {t : TaskId} {i : Instance}
    (hAct : .act t (.store (.register name i)) () ∈ past) :
    Bundleless.lastRegistered? name past = some i := by
  cases hIs : Bundleless.lastRegistered? name past with
  | none => exact absurd hAct (lastRegistered?_eq_none_iff.mp hIs t i)
  | some j =>
    obtain ⟨k, hAct'⟩ := mem_of_lastRegistered? hIs
    have hMisses := hUnasked.misses_of_register hRun (hOnly t i hAct) hAct
    have hMisses' := hUnasked.misses_of_register hRun (hOnly k j hAct') hAct'
    obtain rfl := hOnce t k hMisses hMisses'
    have hTidy := hUnasked.tidy hRun hMisses.1
    rw [hTidy.registers name i (mem_historyOf.mpr hAct) name j (mem_historyOf.mpr hAct')]

/-- What was found under the name is there still. -/
theorem Unasked.get?_of_found {t : TaskId} {i : Instance}
    (hFound : .act t (.store (.registered name)) (some i) ∈ past) :
    w.store.registry.get? name = some i := by
  have hKept := hUnasked.spared.kept hRun
  have hGet := hRun.registry_get?_of_kept hKept name
  obtain ⟨before, hSub, hIs⟩ := hRun.of_registered hKept hFound
  cases hBefore : Bundleless.lastRegistered? name before with
  | some j =>
    rw [hBefore] at hIs
    obtain rfl : i = j := Option.some.inj hIs
    obtain ⟨k, hAct⟩ := mem_of_lastRegistered? hBefore
    rw [hGet, hUnasked.lastRegistered? hRun hOnce hOnly (hSub hAct)]
    rfl
  | none =>
    rw [hBefore, Option.none_or] at hIs
    have hNone : Bundleless.lastRegistered? name past = none := by
      rw [lastRegistered?_eq_none_iff]
      intro k j hAct
      -- Who registers something has found nothing, but something was there all the time.
      have hMisses := hUnasked.misses_of_register hRun (hOnly k j hAct) hAct
      obtain ⟨since, -, hNone⟩ := hRun.of_registered hKept hMisses.2
      rw [← hIs] at hNone
      cases Bundleless.lastRegistered? name since <;> simp at hNone
    rw [hGet, hNone, Option.none_or, hIs]

/-- Where one task at most has missed the name, the module is loaded once, and all get it. -/
theorem Unasked.loadedOnce : w.LoadedOnce h past name where
  once := hUnasked.countP_le_one hRun hOnce
  same := by
    intro t x hRequested hOutcome
    obtain ⟨i, rfl, hFound | hSupplies⟩ := hUnasked.obtains hRun hRequested hOutcome
    · have hAct := mem_historyOf.mp hFound.1
      have hGet := hUnasked.get?_of_found hRun hOnce hOnly hAct
      exact ⟨i, rfl, Load.drive_require_iff.mpr hGet⟩
    · have hAct := mem_historyOf.mp hSupplies.registers
      have hGet := hRun.registry_get?_of_kept (hUnasked.spared.kept hRun) name
      rw [hUnasked.lastRegistered? hRun hOnce hOnly hAct] at hGet
      exact ⟨i, rfl, Load.drive_require_iff.mpr hGet⟩

end

/-- **A module under a rule is loaded as often as it is missed.** In every run in which the name is
    registered only by tasks that ask for it: if at most one of them has looked it up in vain, the
    page has been handed at most one script for it, and all who have got a module by the name have
    got the one that `require` gives. The other way round, where all of them have got something and
    this was so, at most one has looked it up in vain. -/
theorem Run.loaded_once_iff (hRun : Run h asks w₀ past w) (hUnasked : w₀.Unasked name)
    (hOnly : ∀ t i, .act t (.store (.register name i)) () ∈ past → w.requested? t = some name) :
    ((∀ j k, w.Misses past name j → w.Misses past name k → j = k) →
      w.LoadedOnce h past name) ∧
    ((∀ t, w.requested? t = some name → ∃ x, w.outcome? t = some (.ok x)) →
      w.LoadedOnce h past name → ∀ j k, w.Misses past name j → w.Misses past name k → j = k) := by
  constructor
  · intro hOnce
    exact hUnasked.loadedOnce hRun hOnce hOnly
  · intro hDone hLoaded j k hJ hK
    exact hUnasked.missed_once hRun hDone hLoaded.once hJ hK

theorem unasked_empty (name : String) : Unasked {} name :=
  ⟨fun t => by simp [requested?, workOf?], fun t task hTask => by simp at hTask⟩

/-- An icon is asked for twice, one time after the other: the second time it is there. -/
theorem Run.loaded_once_iff_again : ∃ past w,
    Run Replay.iconHost Replay.iconLoader.Asks {} past w ∧ Unasked {} "icons/react" ∧
    (∀ t i, .act t (.store (.register "icons/react" i)) () ∈ past →
      w.requested? t = some "icons/react") ∧
    w.loadedBy? 1 = w.loadedBy? 0 ∧ (w.loadedBy? 0).isSome = true ∧
    ((∀ j k, w.Misses past "icons/react" j → w.Misses past "icons/react" k → j = k) →
      w.LoadedOnce Replay.iconHost past "icons/react") ∧
    ((∀ t, w.requested? t = some "icons/react" → ∃ x, w.outcome? t = some (.ok x)) →
      w.LoadedOnce Replay.iconHost past "icons/react" →
      ∀ j k, w.Misses past "icons/react" j → w.Misses past "icons/react" k → j = k) := by
  obtain ⟨past, w, hRun, hDone⟩ := exists_run Replay.iconHost Replay.iconLoader {}
    (Replay.loadIcon ++ [.ask (.call "icons/react" none), .go 1 1])
    (fun x => (x.2.tasks.all fun task => task.work.remoteName? = some "icons/react") ∧
      x.2.loadedBy? 1 = x.2.loadedBy? 0 ∧ (x.2.loadedBy? 0).isSome = true) (by decide +kernel)
  obtain ⟨hAll, hSame, hSome⟩ := of_decide_eq_true hDone
  have hOnly : ∀ t i, .act t (.store (.register "icons/react" i)) () ∈ past →
      w.requested? t = some "icons/react" := by
    intro t i hAct
    obtain ⟨work, hWork⟩ := hRun.exists_work hAct
    obtain ⟨task, hTask, rfl⟩ := Option.map_eq_some_iff.mp hWork
    rw [requested?, hWork]
    exact of_decide_eq_true (List.all_eq_true.mp hAll task (List.mem_of_getElem? hTask))
  exact ⟨past, w, hRun, unasked_empty _, hOnly, hSame, hSome,
    hRun.loaded_once_iff (unasked_empty _) hOnly⟩

end World

/-- However many ask for a name, and however their loads overlap: when all of them have got something
    the module was loaded once. -/
def Loader.LoadsOnce (h : Host) (l : Loader) (name : String) : Prop :=
  ∀ past w, World.Run h l.Asks {} past w →
    (∀ t, w.requested? t = some name → ∃ x, w.outcome? t = some (.ok x)) →
    w.LoadedOnce h past name

/-- **Two who ask for an icon at the same time both load it**: both look it up before either has
    registered it. -/
theorem Loader.not_loadsOnce : ¬ Replay.iconLoader.LoadsOnce Replay.iconHost "icons/react" := by
  intro hLoads
  obtain ⟨past, w, hRun, hDone⟩ := World.exists_run Replay.iconHost Replay.iconLoader {}
    [.ask (.call "icons/react" none), .ask (.call "icons/react" none), .go 0 2, .go 1 2,
      .reply 0 (Replay.found ""), .go 0 7, .reply 1 (Replay.found ""), .go 1 7]
    (fun x => x.2.tasks.length = 2 ∧ (x.2.loadedBy? 0).isSome = true ∧
      (x.2.loadedBy? 1).isSome = true ∧ x.1.countP (·.isScriptFor x.2 "icons/react") = 2)
    (by decide +kernel)
  obtain ⟨hTwo, hFirst, hSecond, hScripts⟩ := of_decide_eq_true hDone
  have hOk : ∀ t, w.requested? t = some "icons/react" → ∃ x, w.outcome? t = some (.ok x) := by
    intro t hRequested
    obtain ⟨work, hWork, -⟩ := Option.bind_eq_some_iff.mp hRequested
    have hLt : t < 2 := hTwo ▸ World.lt_of_workOf? hWork
    have hLoaded : (w.loadedBy? t).isSome = true := by
      rcases Nat.le_one_iff_eq_zero_or_eq_one.mp (Nat.le_of_lt_succ hLt) with rfl | rfl
      · exact hFirst
      · exact hSecond
    obtain ⟨x, hLoaded⟩ := Option.isSome_iff_exists.mp hLoaded
    exact ⟨some x, World.loadedBy?_eq_some_iff.mp hLoaded⟩
  have hOnce := (hLoads past w hRun hOk).once
  rw [hScripts] at hOnce
  omega

end Bundleless
