import Bundleless.Proofs.Alike
import Bundleless.Proofs.Requests
import Bundleless.Proofs.Settling

/-! # Callers of local modules

    Who asks for a local module from outside may be dropped before the answer
    is there. Once the first stage is joined there is little left to do for
    the caller: to wait, to remember the path under the key, and to register
    the module under the specifier. What the key stands for then is the same
    for everybody if it is not mistaken for another one; and where all others
    are done the caller can go on to its end.
-/

namespace Bundleless

variable {h : Host} {l : Loader} {w₀ w w' w₁ : World} {past more : List Label} {t c : TaskId}
  {specifier dir path : String}

/-! ## Section 1: The caller -/

namespace World

/-- The task is a request from outside for a local module, and it has joined the first stage. -/
structure Caller (w : World) (past : List Label) (c : TaskId) (specifier dir : String) : Prop where
  request : ∃ work, w.workOf? c = some work ∧ work.localRequest? = some (specifier, dir)
  isLocal : LocalPath.isLocal specifier = true
  outside : ∀ t new, .act t (.spawn new) c ∉ past
  joined : ∃ l basePath k, .act c (.shareResolve l basePath) k ∈ past

/-- Whoever is started in a run has a new number. -/
theorem Run.le_of_spawn {asks : Work → Prop} (hRun : Run h asks w₀ past w) {k : TaskId} {new : Work}
    (hAct : .act t (.spawn new) k ∈ past) : w₀.tasks.length ≤ k := by
  obtain ⟨before, after, v, v', -, hBefore, hStep, -⟩ := hRun.exists_step hAct
  cases hStep with
  | act _ hAnswer =>
    rw [hAnswer.spawn.1]
    exact hBefore.length_le

/-- Whoever is joined is at one of the two stages. -/
theorem Run.isStage_of_joined (hRun : Run h l.Asks w₀ past w) (hFresh : w₀.Fresh) {k : TaskId}
    (hJoined : (historyOf t past).Joined k) :
    ∃ work, w.workOf? k = some work ∧ work.job.isStage = true := by
  rcases hJoined with ⟨l', basePath, hJoin⟩ | ⟨l', path, source, hJoin⟩
  · obtain ⟨l'', hWork⟩ := hRun.resolves_of_join hFresh (mem_historyOf.mp hJoin)
    exact ⟨_, hWork, rfl⟩
  · obtain ⟨l'', source', hWork⟩ := hRun.executes_of_join hFresh (mem_historyOf.mp hJoin)
    exact ⟨_, hWork, rfl⟩

namespace Caller

variable {asks : Work → Prop}

/-- Whatever happens, the caller remains one. -/
theorem later (hCaller : w.Caller past c specifier dir) (hMore : Run h asks w more w₁) :
    w₁.Caller (more ++ past) c specifier dir := by
  obtain ⟨work, hWork, hRequest⟩ := hCaller.request
  obtain ⟨l, basePath, k, hJoin⟩ := hCaller.joined
  refine ⟨⟨work, hMore.workOf? hWork, hRequest⟩, hCaller.isLocal, fun t new hAct => ?_,
    ⟨l, basePath, k, List.mem_append_right _ hJoin⟩⟩
  rcases List.mem_append.mp hAct with hNew | hOld
  · have hLe := hMore.le_of_spawn hNew
    exact absurd (lt_of_workOf? hWork) (Nat.not_lt.mpr hLe)
  · exact hCaller.outside t new hOld

theorem le (hCaller : w.Caller past c specifier dir) (hRun : Run h asks w₀ past w)
    (hFresh : w₀.Fresh) : w₀.tasks.length ≤ c := by
  obtain ⟨⟨loader, job⟩, hWork, hRequest⟩ := hCaller.request
  refine hRun.le_of_work hFresh hWork fun d hTool => ?_
  obtain rfl : job = .tool d := hTool
  cases hRequest

/-- Nobody joins the caller. -/
theorem not_joined (hCaller : w.Caller past c specifier dir) (hRun : Run h l.Asks w₀ past w)
    (hFresh : w₀.Fresh) : ¬ (historyOf t past).Joined c := by
  intro hJoined
  obtain ⟨⟨loader, job⟩, hWork, hRequest⟩ := hCaller.request
  obtain ⟨work, hWork', hStage⟩ := hRun.isStage_of_joined hFresh hJoined
  obtain rfl := Option.some.inj (hWork.symm.trans hWork')
  cases job with
  | resolve | execute => cases hRequest
  | _ => cases hStage

/-- The caller has only to wait, to remember the path and to register the module. -/
theorem lands (hCaller : w.Caller past c specifier dir) (hRun : Run h asks w₀ past w)
    (hFresh : w₀.Fresh) {work : Work} {p : Load Outcome} (hTask : w.tasks[c]? = some ⟨work, p⟩) :
    p.Only (·.Lands specifier dir) := by
  obtain ⟨work', hWork, hRequest⟩ := hCaller.request
  obtain rfl : work = work' := Option.some.inj ((workOf?_of_task hTask).symm.trans hWork)
  obtain ⟨l, basePath, k, hJoin⟩ := hCaller.joined
  have hJoined : ¬ (historyOf c past).Unjoined :=
    fun hUnjoined => hUnjoined l basePath k (mem_historyOf.mpr hJoin)
  have hObeys := hRun.obeys_of work.seeks hTask (hCaller.le hRun hFresh)
  generalize historyOf c past = hist at hObeys hJoined
  clear hTask
  induction hObeys with
  | done => exact .done _
  | @ask hist o next hSeeks _ ih =>
    refine .ask (hSeeks.lands _ _ hRequest hJoined) fun r => ih r ?_
    exact fun hUnjoined => hJoined fun l b k hMem => hUnjoined l b k (List.mem_cons_of_mem _ hMem)

end Caller

/-! ## Section 2: What the key means -/

/-- The key of the request is not mistaken for another one: all requests with this key mean the same
    base path, only one path is found for it, and nobody asks for the text of the specifier as for
    a name. -/
structure Unmistaken (l : Loader) (w : World) (past : List Label) (specifier dir : String) :
    Prop where
  means : ∀ t work s d, w.workOf? t = some work → work.localRequest? = some (s, d) →
    LocalPath.key s d = LocalPath.key specifier dir →
    LocalPath.resolve s d l.page = LocalPath.resolve specifier dir l.page
  finds : ∀ basePath t k p q, LocalPath.resolve specifier dir l.page = .ok basePath →
    .act t (.store (.setResolved basePath p)) () ∈ past →
    .act k (.store (.setResolved basePath q)) () ∈ past → p = q
  byName : ∀ t work, w.workOf? t = some work → work.remoteName? ≠ some specifier

namespace Unmistaken

variable {asks : Work → Prop} {step : Label}

/-- What is not mistaken at the end of a run never was. -/
theorem of_step (hUnmistaken : Unmistaken l w₁ (step :: past) specifier dir)
    (hStep : Step h asks w step w₁) : Unmistaken l w past specifier dir where
  means t work s d hWork := hUnmistaken.means t work s d (hStep.workOf? hWork)
  finds basePath t k p q hResolve hFirst hThen := hUnmistaken.finds basePath t k p q hResolve
    (List.mem_cons_of_mem _ hFirst) (List.mem_cons_of_mem _ hThen)
  byName t work hWork := hUnmistaken.byName t work (hStep.workOf? hWork)

/-- What is remembered under the key was found for the base path of the request. -/
theorem noted (hUnmistaken : Unmistaken l w past specifier dir) (hRun : Run h l.Asks w₀ past w)
    (hFresh : w₀.Fresh)
    (hKept : .act t (.store (.setAlias (LocalPath.key specifier dir) path)) () ∈ past) :
    ∃ basePath k, LocalPath.resolve specifier dir l.page = .ok basePath ∧
      .act k (.store (.setResolved basePath path)) () ∈ past := by
  obtain ⟨work, s, d, basePath, k, hWork, hRequest, hKey, hResolve, hNoted⟩ :=
    hRun.noted_of_remembered hFresh hKept
  rw [hUnmistaken.means t work s d hWork hRequest hKey.symm] at hResolve
  exact ⟨basePath, k, hResolve, hNoted⟩

/-- Only one path is remembered under the key. -/
theorem eq_of_kept (hUnmistaken : Unmistaken l w past specifier dir)
    (hRun : Run h l.Asks w₀ past w) (hFresh : w₀.Fresh) {k : TaskId} {p q : String}
    (hFirst : .act t (.store (.setAlias (LocalPath.key specifier dir) p)) () ∈ past)
    (hThen : .act k (.store (.setAlias (LocalPath.key specifier dir) q)) () ∈ past) : p = q := by
  obtain ⟨b, j, hResolve, hNoted⟩ := hUnmistaken.noted hRun hFresh hFirst
  obtain ⟨b', j', hResolve', hNoted'⟩ := hUnmistaken.noted hRun hFresh hThen
  obtain rfl := Except.ok.inj (hResolve.symm.trans hResolve')
  exact hUnmistaken.finds b j j' p q hResolve hNoted hNoted'

/-- Where something is remembered under the key, it is what there is. -/
theorem missing {k : TaskId} {s : Store}
    (hUnmistaken : Unmistaken l w₁
      (.act k (.store (.setAlias (LocalPath.key specifier dir) path)) () :: past) specifier dir)
    (hRun : Run h l.Asks w₀ past w) (hFresh : w₀.Fresh)
    (hStep : Step h l.Asks w
      (.act k (.store (.setAlias (LocalPath.key specifier dir) path)) ()) w₁)
    (hSame : w.store.SameBut (LocalPath.key specifier dir) specifier s) :
    s.aliases.get? (LocalPath.key specifier dir) = none ∨
      s.aliases.get? (LocalPath.key specifier dir) = some path := by
  rcases hSame.missing with hNone | hIs
  · exact Or.inl hNone
  · cases hAlias : w.store.aliases.get? (LocalPath.key specifier dir) with
    | none => exact Or.inl (hIs.trans hAlias)
    | some p =>
      obtain ⟨j, hKept⟩ := (hRun.written hFresh).aliases _ p hAlias
      obtain rfl : p = path := hUnmistaken.eq_of_kept (hRun.tail hStep) hFresh
        (List.mem_cons_of_mem _ hKept) List.mem_cons_self
      exact Or.inr (hIs.trans hAlias)

end Unmistaken

/-- What was found for a base path is not forgotten. -/
theorem Step.resolved_isSome {asks : Work → Prop} {step : Label} (hStep : Step h asks w step w₁)
    (hKept : ∀ t, step ≠ .act t (.store .clear) ()) {basePath : String}
    (hFound : (w.store.resolved.get? basePath).isSome = true) :
    (w₁.store.resolved.get? basePath).isSome = true := by
  cases hStep with
  | @act w' t work o next r _ hAnswer =>
    rw [store_setProgram]
    cases hAnswer.effect with
    | quiet hSame => rwa [hSame.resolved]
    | setResolved b p =>
      simp only [withStore, Table.get?_insert]
      split
      · rfl
      · exact hFound
    | clear => exact absurd rfl (hKept t)
    | _ => exact hFound
  | start => exact hFound

theorem Run.resolved_isSome (hRun : Run h l.Asks w₀ past w) (hFresh : w₀.Fresh) {basePath : String}
    (hNoted : .act t (.store (.setResolved basePath path)) () ∈ past) :
    (w.store.resolved.get? basePath).isSome = true := by
  induction hRun with
  | refl => cases hNoted
  | @tail past w w₁ step hRun hStep ih =>
    have hClear := (hRun.tail hStep).not_clear hFresh
    rcases List.mem_cons.mp hNoted with rfl | hNoted
    · cases hStep with
      | act _ hAnswer =>
        obtain ⟨-, rfl⟩ := hAnswer.store
        simp [StoreOp.apply, withStore]
    · refine hStep.resolved_isSome (fun t hIs => hClear t ?_) (ih hNoted)
      rw [hIs]
      exact List.mem_cons_self

/-- Where there is an alias under the key, the module is cached, and the path is what was found for
    the base path. -/
theorem Unmistaken.of_alias (hUnmistaken : Unmistaken l w past specifier dir)
    (hRun : Run h l.Asks w₀ past w) (hFresh : w₀.Fresh)
    (hAlias : w.store.aliases.get? (LocalPath.key specifier dir) = some path) :
    ∃ basePath i, LocalPath.resolve specifier dir l.page = .ok basePath ∧
      w.store.resolved.get? basePath = some path ∧ w.store.cache.get? path = some i := by
  have hWritten := hRun.written hFresh
  obtain ⟨k, hKept⟩ := hWritten.aliases _ path hAlias
  obtain ⟨basePath, j, hResolve, hNoted⟩ := hUnmistaken.noted hRun hFresh hKept
  have hInv : LocalInv l ⟨w, past⟩ := (hRun.adequate hFresh).holds.inv
  obtain ⟨⟨i, hCached⟩, -⟩ := hInv.aliases _ path hAlias
  obtain ⟨q, hFound⟩ := Option.isSome_iff_exists.mp (hRun.resolved_isSome hFresh hNoted)
  obtain ⟨j', hNoted'⟩ := hWritten.resolved basePath q hFound
  obtain rfl := hUnmistaken.finds basePath j' j q path hResolve hNoted' hNoted
  exact ⟨basePath, i, hResolve, hFound, hCached⟩

end World

/-! ## Section 3: The caller alone -/

/-- The operation is answered from outside. -/
def Op.isOutside : Op → Bool
  | .reply .. | .sleep _ => true
  | _ => false

/-- The step comes from outside: something is asked for, or answered. -/
def Label.isOutside : Label → Bool
  | .act _ o _ => o.isOutside
  | .start _ => true

theorem Op.Lands.isOutside {o : Op} (hLands : o.Lands specifier dir) : o.isOutside = false := by
  unfold Op.isOutside
  split
  all_goals first | exact hLands.elim | rfl

/-- What the caller has left to do changes the store at most, and there only what may be missing. -/
theorem Op.Answers.lands {o : Op} {r : o.Reply} (hAnswer : o.Answers h w r w')
    (hLands : o.Lands specifier dir) : ∃ s, w' = w.withStore s ∧ s.cache = w.store.cache ∧
      ∀ s', w.store.SameBut (LocalPath.key specifier dir) specifier s' →
        (∀ path, o = .store (.setAlias (LocalPath.key specifier dir) path) →
          s'.aliases.get? (LocalPath.key specifier dir) = none ∨
            s'.aliases.get? (LocalPath.key specifier dir) = some path) →
        s.SameBut (LocalPath.key specifier dir) specifier s' := by
  cases o with
  | await k =>
    obtain ⟨-, rfl⟩ := hAnswer.await
    exact ⟨w'.store, rfl, rfl, fun s' hSame _ => hSame⟩
  | store o =>
    obtain ⟨-, rfl⟩ := hAnswer.store
    cases o with
    | setAlias key path =>
      obtain rfl : key = LocalPath.key specifier dir := hLands
      exact ⟨_, rfl, rfl, fun s' hSame hMissing => hSame.setAlias_left (hMissing path rfl)⟩
    | register name i =>
      obtain rfl : name = specifier := hLands
      exact ⟨_, rfl, rfl, fun s' hSame _ => hSame.register_left i⟩
    | _ => exact hLands.elim
  | _ => exact hLands.elim

namespace World

/-- What the caller has left to do does not change what its key means. -/
theorem Unmistaken.of_lands (hUnmistaken : Unmistaken l w past specifier dir) {o : Op} {r : o.Reply}
    (hLands : o.Lands specifier dir) (s : Store) (p : Load Outcome) :
    Unmistaken l ((w.withStore s).setProgram c p) (.act c o r :: past) specifier dir where
  means t work s d hWork := by
    rw [workOf?_setProgram] at hWork
    exact hUnmistaken.means t work s d hWork
  finds basePath t k p q hResolve hFirst hThen := by
    have hOld : ∀ {t p}, .act t (.store (.setResolved basePath p)) () ∈ Label.act c o r :: past →
        .act t (.store (.setResolved basePath p)) () ∈ past := by
      intro t p hMem
      rcases List.mem_cons.mp hMem with hEq | hMem
      · injection hEq with _ hIs _
        subst hIs
        exact hLands.elim
      · exact hMem
    exact hUnmistaken.finds basePath t k p q hResolve (hOld hFirst) (hOld hThen)
  byName t work hWork := by
    rw [workOf?_setProgram] at hWork
    exact hUnmistaken.byName t work hWork

/-- Where all others are done the caller need not wait. -/
theorem Caller.exists_answer (hCaller : w.Caller past c specifier dir) (hRun : Run h l.Asks w₀ past w)
    (hFresh : w₀.Fresh) (hOthers : ∀ t, t ≠ c → t < w.tasks.length → (w.outcome? t).isSome = true)
    {work : Work} {o : Op} {next : o.Reply → Load Outcome}
    (hTask : w.tasks[c]? = some ⟨work, .ask o next⟩) : ∃ r w', o.Answers h w r w' := by
  obtain - | ⟨hLands, -⟩ := hCaller.lands hRun hFresh hTask
  have hAllows := (hRun.obeys hTask (hCaller.le hRun hFresh)).allows
  have hStage : ∀ k wanted, o.WaitsFor k wanted → k ≠ c ∧
      ∃ work, w.workOf? k = some work ∧ work.job.isStage = true := by
    intro k wanted hWaits
    cases hWaits with
    | await =>
      refine ⟨?_, hRun.isStage_of_joined hFresh hAllows⟩
      rintro rfl
      exact hCaller.not_joined hRun hFresh hAllows
    | allOk => exact hLands.elim
    | allDone => exact hLands.elim
  obtain ⟨r, w', hAnswer, -⟩ := World.exists_answer h (fun _ _ => .ok ⟨404, ""⟩) w o
    (fun k wanted hWaits => by
      obtain ⟨hNe, work, hWork, -⟩ := hStage k wanted hWaits
      exact hOthers k hNe (lt_of_workOf? hWork))
    (fun k x hWaits hOk => by
      obtain ⟨-, ⟨loader, job⟩, hWork, hStage⟩ := hStage k true hWaits
      have hNew := hRun.le_of_work hFresh hWork fun d hTool => by
        obtain rfl : job = .tool d := hTool
        cases hStage
      refine (hRun.ends hWork hNew hOk).leaves x ?_ rfl
      cases job with
      | resolve | execute => rfl
      | _ => cases hStage)
  exact ⟨r, w', hAnswer⟩

/-- Where all others are done the caller can go on to its end, and leaves no more than may be
    missing. -/
theorem Caller.ends (hCaller : w.Caller past c specifier dir) (hRun : Run h l.Asks w₀ past w)
    (hFresh : w₀.Fresh) (hUnmistaken : Unmistaken l w past specifier dir)
    (hOthers : ∀ t, t ≠ c → t < w.tasks.length → (w.outcome? t).isSome = true) :
    ∃ steps w₁, Run h l.Asks w steps w₁ ∧ (w₁.outcome? c).isSome = true ∧
      steps.filter (·.isOutside) = [] ∧ w₁.SameBut c (LocalPath.key specifier dir) specifier w := by
  obtain ⟨work, hWork, -⟩ := hCaller.request
  obtain ⟨⟨work, p⟩, hTask, -⟩ := Option.map_eq_some_iff.mp hWork
  have hOnly := hCaller.lands hRun hFresh hTask
  -- By induction on what the caller has before it, whatever it has left so far.
  suffices hFrom : ∀ past v, Run h l.Asks w₀ past v → v.Caller past c specifier dir →
      Unmistaken l v past specifier dir →
      (∀ t, t ≠ c → t < v.tasks.length → (v.outcome? t).isSome = true) →
      v.tasks[c]? = some ⟨work, p⟩ →
      v.SameBut c (LocalPath.key specifier dir) specifier w →
      ∃ steps w₁, Run h l.Asks v steps w₁ ∧ (w₁.outcome? c).isSome = true ∧
        steps.filter (·.isOutside) = [] ∧
        w₁.SameBut c (LocalPath.key specifier dir) specifier w from
    hFrom past w hRun hCaller hUnmistaken hOthers hTask (.refl c _ specifier w)
  clear hRun hCaller hUnmistaken hOthers hTask hWork
  induction hOnly with
  | done r =>
    intro past v _ _ _ _ hTask hSame
    refine ⟨[], v, .refl, ?_, rfl, hSame⟩
    rw [outcome?_eq_some_iff.mpr ⟨work, hTask⟩]
    rfl
  | @ask o next hLands _ ih =>
    intro past v hRun hCaller hUnmistaken hOthers hTask hSame
    obtain ⟨r, v', hAnswer⟩ := hCaller.exists_answer hRun hFresh hOthers hTask
    obtain ⟨s, rfl, -, hStore⟩ := hAnswer.lands hLands
    have hStep : Step h l.Asks v (.act c o r) ((v.withStore s).setProgram c (next r)) :=
      .act hTask hAnswer
    have hUnmistaken' := hUnmistaken.of_lands (c := c) (r := r) hLands s (next r)
    have hSame' : (v.withStore s).SameBut c (LocalPath.key specifier dir) specifier w :=
      hSame.withStore (hStore _ hSame.store fun path hIs => by
        subst hIs
        exact hUnmistaken'.missing hRun hFresh hStep hSame.store)
    obtain ⟨steps, w₁, hRun', hDone, hInside, hEnd⟩ := ih r _ _ (hRun.tail hStep)
      (hCaller.later (.tail .refl hStep)) hUnmistaken' (fun t hNe hLt => by
        rw [outcome?_setProgram, if_neg hNe]
        rw [length_setProgram] at hLt
        exact hOthers t hNe hLt)
      (getElem?_setProgram_self hTask) (hSame'.setProgram_left (next r))
    refine ⟨steps ++ [.act c o r], w₁, (Run.tail .refl hStep).append hRun', hDone, ?_, hEnd⟩
    rw [List.filter_append, hInside,
      List.filter_cons_of_neg (by simp [Label.isOutside, hLands.isOutside])]
    rfl

end World

end Bundleless
