import Bundleless.Proofs.Moment

/-! # What an operation does

    Section 1 says once what an answered operation has made of the world
    (`Op.Answers.becomes`), so that nothing that is shown of every operation
    has to go through their code again. Most operations leave the tables of
    the local modules and the tasks as they are and forget no key of the
    registry: they are quiet. The others change one table, or start one task
    (`Op.Answers.effect`); whatever is to be shown of the tables is shown of
    each of these effects.
-/

namespace Bundleless

variable {h : Host} {w w' : World}

/-! ## Section 1: What becomes of the world -/

theorem Op.Answers.store {o : StoreOp} {r : o.Reply} (hAnswer : (Op.store o).Answers h w r w') :
    r = (o.apply w.store).1 ∧ w' = w.withStore (o.apply w.store).2 := by
  cases hAnswer with
  | perform hPerform =>
    simp only [Op.perform, Option.some.injEq, Prod.mk.injEq] at hPerform
    exact ⟨hPerform.1.symm, hPerform.2.symm⟩

theorem Op.Answers.spawn {work : Work} {k : TaskId}
    (hAnswer : (Op.spawn work).Answers h w k w') :
    k = w.tasks.length ∧ w' = (w.start work).2 := by
  cases hAnswer with
  | perform hPerform =>
    simp only [Op.perform, Option.some.injEq] at hPerform
    exact ⟨(congrArg Prod.fst hPerform).symm, (congrArg Prod.snd hPerform).symm⟩

/-- The first stage is joined, or started. -/
theorem Op.Answers.shareResolve {l : Loader} {basePath : String} {k : TaskId}
    (hAnswer : (Op.shareResolve l basePath).Answers h w k w') :
    (w.store.resolving.get? basePath = some k ∧ w' = w) ∨
    (w.store.resolving.get? basePath = none ∧ k = w.tasks.length ∧
      w' = (w.start ⟨l, .resolve basePath⟩).2.withStore
        { w.store with resolving := w.store.resolving.insert basePath k }) := by
  cases hAnswer with
  | perform hPerform =>
    simp only [Op.perform] at hPerform
    split at hPerform <;> cases hPerform
    · exact Or.inl ⟨‹_›, rfl⟩
    · exact Or.inr ⟨‹_›, rfl, rfl⟩

/-- The second stage is joined, or its module is there, or it is started. -/
theorem Op.Answers.shareExecute {l : Loader} {path source : String} {r : Instance ⊕ TaskId}
    (hAnswer : (Op.shareExecute l path source).Answers h w r w') :
    (∃ k, r = .inr k ∧ w.store.executing.get? path = some k ∧ w' = w) ∨
    (∃ i, r = .inl i ∧ w.store.executing.get? path = none ∧
      w.store.cache.get? path = some i ∧ w' = w) ∨
    (r = .inr w.tasks.length ∧ w.store.executing.get? path = none ∧
      w.store.cache.get? path = none ∧
      w' = (w.start ⟨l, .execute path source⟩).2.withStore
        { w.store with executing := w.store.executing.insert path w.tasks.length }) := by
  cases hAnswer with
  | perform hPerform =>
    simp only [Op.perform] at hPerform
    split at hPerform
    · cases hPerform
      exact Or.inl ⟨_, rfl, ‹_›, rfl⟩
    · split at hPerform <;> cases hPerform
      · exact Or.inr (Or.inl ⟨_, rfl, ‹_›, ‹_›, rfl⟩)
      · exact Or.inr (Or.inr ⟨rfl, ‹_›, ‹_›, rfl⟩)

/-- Who waits for a task changes nothing. -/
theorem Op.Answers.await {k : TaskId} {r : Except Failure Loaded}
    (hAnswer : (Op.await k).Answers h w r w') : w.loaded? k = some r ∧ w' = w := by
  cases hAnswer with
  | perform hPerform =>
    simp only [Op.perform, Option.map_eq_some_iff, Prod.mk.injEq] at hPerform
    obtain ⟨r', hLoaded, rfl, rfl⟩ := hPerform
    exact ⟨hLoaded, rfl⟩

/-- Who waits for tasks changes nothing. -/
theorem Op.Answers.allOk {ts : List TaskId} {r : Except Failure Unit}
    (hAnswer : (Op.allOk ts).Answers h w r w') :
    Join.all (ts.map w.outcome?) = some r ∧ w' = w := by
  cases hAnswer with
  | perform hPerform =>
    simp only [Op.perform, Option.map_eq_some_iff, Prod.mk.injEq] at hPerform
    obtain ⟨r', hAll, rfl, rfl⟩ := hPerform
    exact ⟨hAll, rfl⟩

/-- Who waits for tasks one by one changes nothing either. -/
theorem Op.Answers.allDone {ts : List TaskId} {rs : List (Except Failure Loaded)}
    (hAnswer : (Op.allDone ts).Answers h w rs w') :
    ts.mapM w.loaded? = some rs ∧ w' = w := by
  cases hAnswer with
  | perform hPerform =>
    simp only [Op.perform, Option.map_eq_some_iff, Prod.mk.injEq] at hPerform
    obtain ⟨rs', hAll, rfl, rfl⟩ := hPerform
    exact ⟨hAll, rfl⟩

theorem World.store_log (w : World) (event : String) (detail : Json) (level : Level) :
    (w.log event detail level).store = w.store := by
  unfold log
  split <;> rfl

/-- The operation may leave the world as it is: it waits for somebody, or it can join a stage. -/
def Op.mayLeave : Op → Bool
  | .reply .. | .sleep _ | .shareResolve .. | .shareExecute .. | .await _ | .allOk _
  | .allDone _ => true
  | _ => false

/-- What becomes of the world by an operation, and what the operation is answered. -/
inductive World.Becomes (h : Host) (w : World) : (o : Op) → o.Reply → World → Prop
  | same (o : Op) (r : o.Reply) (hLeaves : o.mayLeave = true) : Becomes h w o r w
  | store (o : StoreOp) :
      Becomes h w (.store o) (o.apply w.store).1 (w.withStore (o.apply w.store).2)
  | host (o : HostOp) : Becomes h w (.host o) (o.perform h w).1 (o.perform h w).2
  | send (method : Method) (url : String) :
      Becomes h w (.send method url) () (w.note (.requested method url))
  | log (event : String) (detail : Json) (level : Level) :
      Becomes h w (.log event detail level) () (w.log event detail level)
  | setVerbose (on : Bool) : Becomes h w (.setVerbose on) ()
      { w with telemetry := { w.telemetry with verbose := on } }
  | spawn (work : Work) : Becomes h w (.spawn work) w.tasks.length (w.start work).2
  | startResolve (l : Loader) (basePath : String)
      (hVacant : w.store.resolving.get? basePath = none) :
      Becomes h w (.shareResolve l basePath) w.tasks.length
        ((w.start ⟨l, .resolve basePath⟩).2.withStore
          { w.store with resolving := w.store.resolving.insert basePath w.tasks.length })
  | startExecute (l : Loader) (path source : String)
      (hVacant : w.store.executing.get? path = none) (hNone : w.store.cache.get? path = none) :
      Becomes h w (.shareExecute l path source) (.inr w.tasks.length)
        ((w.start ⟨l, .execute path source⟩).2.withStore
          { w.store with executing := w.store.executing.insert path w.tasks.length })

/-- **What an operation does**, whatever it answers. -/
theorem Op.Answers.becomes {o : Op} {r : o.Reply} (hAnswer : o.Answers h w r w') :
    w.Becomes h o r w' := by
  cases hAnswer with
  | reply method url r => exact .same (.reply method url) r rfl
  | wake ms => exact .same (.sleep ms) () rfl
  | perform hPerform =>
    have hAnswer := Op.Answers.perform hPerform
    cases o with
    | store o =>
      obtain ⟨rfl, rfl⟩ := hAnswer.store
      exact .store o
    | host o =>
      have hBecomes := World.Becomes.host (h := h) (w := w) o
      rwa [show o.perform h w = (r, w') from Option.some.inj hPerform] at hBecomes
    | send method url =>
      cases hPerform
      exact .send method url
    | log event detail level =>
      cases hPerform
      exact .log event detail level
    | setVerbose on =>
      cases hPerform
      exact .setVerbose on
    | spawn work =>
      obtain ⟨rfl, rfl⟩ := hAnswer.spawn
      exact .spawn work
    | shareResolve l basePath =>
      -- Who joins a stage changes nothing.
      rcases hAnswer.shareResolve with ⟨-, rfl⟩ | ⟨hVacant, rfl, rfl⟩
      · exact .same _ r rfl
      · exact .startResolve l basePath hVacant
    | shareExecute l path source =>
      rcases hAnswer.shareExecute with
        ⟨_, -, -, rfl⟩ | ⟨_, -, -, -, rfl⟩ | ⟨rfl, hVacant, hNone, rfl⟩
      · exact .same _ r rfl
      · exact .same _ r rfl
      · exact .startExecute l path source hVacant hNone
    | await k =>
      obtain ⟨-, rfl⟩ := hAnswer.await
      exact .same _ r rfl
    | allOk ks =>
      obtain ⟨-, rfl⟩ := hAnswer.allOk
      exact .same _ r rfl
    | allDone ks =>
      obtain ⟨-, rfl⟩ := hAnswer.allDone
      exact .same _ r rfl
    | reply method url => cases hPerform
    | sleep ms => cases hPerform

/-! ## Section 2: Quiet operations -/

/-- The operation touches neither the tables of the local modules nor the tasks. -/
def Op.isQuiet : Op → Bool
  | .store (.setAlias ..) | .store (.setResolved ..) | .store (.setCached ..)
  | .store (.endResolve _) | .store (.endExecute _) | .store .clear
  | .spawn _ | .shareResolve .. | .shareExecute .. => false
  | _ => true

/-- The tasks and the tables of the local modules are the same, and every key of the registry is
    there still. -/
structure World.Quiet (w w' : World) : Prop where
  tasks : w'.tasks = w.tasks
  aliases : w'.store.aliases = w.store.aliases
  resolved : w'.store.resolved = w.store.resolved
  cache : w'.store.cache = w.store.cache
  resolving : w'.store.resolving = w.store.resolving
  executing : w'.store.executing = w.store.executing
  registered : ∀ key, w.store.registry.contains key = true →
    w'.store.registry.contains key = true

theorem World.Quiet.refl (w : World) : w.Quiet w :=
  ⟨rfl, rfl, rfl, rfl, rfl, rfl, fun _ hKey => hKey⟩

theorem World.Quiet.of_store_eq {w w' : World} (hTasks : w'.tasks = w.tasks)
    (hStore : w'.store = w.store) : w.Quiet w' := by
  refine ⟨hTasks, ?_, ?_, ?_, ?_, ?_, ?_⟩ <;> simp [hStore]

theorem World.quiet_log (w : World) (event : String) (detail : Json) (level : Level) :
    w.Quiet (w.log event detail level) := by
  unfold World.log
  split
  · exact .of_store_eq rfl rfl
  · exact .refl w

theorem StoreOp.quiet_apply (w : World) {o : StoreOp} (hQuiet : (Op.store o).isQuiet = true) :
    w.Quiet (w.withStore (o.apply w.store).2) := by
  cases o <;> simp only [Op.isQuiet, Bool.false_eq_true] at hQuiet
  case register key i =>
    -- The place of a key may be taken by another module, but it is not emptied.
    refine ⟨rfl, rfl, rfl, rfl, rfl, rfl, fun k hKey => ?_⟩
    simpa [apply, World.withStore, Registry.contains_insert] using Or.inr hKey
  all_goals exact ⟨rfl, rfl, rfl, rfl, rfl, rfl, fun _ hKey => hKey⟩

theorem HostOp.quiet_perform (h : Host) (w : World) (o : HostOp) : w.Quiet (o.perform h w).2 := by
  cases o <;> simp only [perform]
  case compile path source =>
    split <;> exact .of_store_eq rfl rfl
  case render config app =>
    split <;> exact .of_store_eq rfl rfl
  all_goals exact ⟨rfl, rfl, rfl, rfl, rfl, rfl, fun _ hKey => hKey⟩

/-- A quiet operation leaves a quiet world. -/
theorem Op.Answers.quiet {o : Op} {r : o.Reply} (hAnswer : o.Answers h w r w')
    (hQuiet : o.isQuiet = true) : w.Quiet w' := by
  cases hAnswer.becomes with
  | same => exact .refl w
  | store o => exact StoreOp.quiet_apply w hQuiet
  | host o => exact HostOp.quiet_perform h w o
  | log event detail level => exact World.quiet_log w event detail level
  | send | setVerbose => exact .of_store_eq rfl rfl
  | spawn | startResolve | startExecute => cases hQuiet

/-! ## Section 3: The effect of an operation -/

/-- What operations do to the tasks and to the tables of the local modules: nothing, or a change of
    one table, or one more task, which has its entry in the table of its stage from the start. -/
inductive World.Effect (w : World) : (o : Op) → o.Reply → World → Prop
  | quiet {o : Op} {r : o.Reply} {w' : World} (hSame : w.Quiet w') : Effect w o r w'
  | setAlias (key path : String) : Effect w (.store (.setAlias key path)) ()
      (w.withStore { w.store with aliases := w.store.aliases.insert key path })
  | setResolved (basePath path : String) : Effect w (.store (.setResolved basePath path)) ()
      (w.withStore { w.store with resolved := w.store.resolved.insert basePath path })
  | setCached (path : String) (i : Instance) : Effect w (.store (.setCached path i)) ()
      (w.withStore { w.store with cache := w.store.cache.insert path i })
  | endResolve (basePath : String) : Effect w (.store (.endResolve basePath)) ()
      (w.withStore { w.store with resolving := w.store.resolving.erase basePath })
  | endExecute (path : String) : Effect w (.store (.endExecute path)) ()
      (w.withStore { w.store with executing := w.store.executing.erase path })
  | clear : Effect w (.store .clear) () (w.withStore (StoreOp.apply w.store .clear).2)
  | spawn (work : Work) : Effect w (.spawn work) w.tasks.length (w.start work).2
  | startResolve (l : Loader) (basePath : String)
      (hVacant : w.store.resolving.get? basePath = none) :
      Effect w (.shareResolve l basePath) w.tasks.length
        ((w.start ⟨l, .resolve basePath⟩).2.withStore
          { w.store with resolving := w.store.resolving.insert basePath w.tasks.length })
  | startExecute (l : Loader) (path source : String)
      (hVacant : w.store.executing.get? path = none) (hNone : w.store.cache.get? path = none) :
      Effect w (.shareExecute l path source) (.inr w.tasks.length)
        ((w.start ⟨l, .execute path source⟩).2.withStore
          { w.store with executing := w.store.executing.insert path w.tasks.length })

/-- **An operation has one of the effects**, whatever it answers. -/
theorem Op.Answers.effect {o : Op} {r : o.Reply} (hAnswer : o.Answers h w r w') :
    w.Effect o r w' := by
  by_cases hQuiet : o.isQuiet = true
  · exact .quiet (hAnswer.quiet hQuiet)
  · cases hAnswer.becomes with
    | same => exact .quiet (.refl w)
    | store o =>
      cases o with
      | setAlias key path => exact .setAlias key path
      | setResolved basePath path => exact .setResolved basePath path
      | setCached path i => exact .setCached path i
      | endResolve basePath => exact .endResolve basePath
      | endExecute path => exact .endExecute path
      | clear => exact .clear
      | _ => exact absurd rfl hQuiet
    | spawn work => exact .spawn work
    | startResolve l basePath hVacant => exact .startResolve l basePath hVacant
    | startExecute l path source hVacant hNone => exact .startExecute l path source hVacant hNone
    | host | send | log | setVerbose => exact absurd rfl hQuiet

/-- An operation starts at most one task, and changes no other. -/
theorem Op.Answers.starts {o : Op} {r : o.Reply} (hAnswer : o.Answers h w r w') :
    ∃ works, w.Starts w' works := by
  cases hAnswer.effect with
  | quiet hSame => exact ⟨[], by simpa [World.Starts] using hSame.tasks⟩
  | spawn work => exact ⟨[work], rfl⟩
  | startResolve l basePath => exact ⟨[⟨l, .resolve basePath⟩], rfl⟩
  | startExecute l path source => exact ⟨[⟨l, .execute path source⟩], rfl⟩
  | _ => exact ⟨[], by simp [World.Starts, World.withStore]⟩

/-! ## Section 4: Waiting for several tasks -/

namespace Join

theorem eager_eq_ok {outcomes : List (Option Outcome)} (hAll : eager outcomes = some (.ok ())) :
    ∀ o ∈ outcomes, ∃ x, o = some (.ok x) := by
  unfold eager at hAll
  split at hAll
  · simp at hAll
  · next hNone =>
    split at hAll
    · next hDone =>
      -- All are done, and none of them with a failure, as the first one would have been found.
      intro o ho
      obtain ⟨r, rfl⟩ := Option.isSome_iff_exists.mp (List.all_eq_true.mp hDone o ho)
      cases r with
      | ok x => exact ⟨x, rfl⟩
      | error e => simpa using List.findSome?_eq_none_iff.mp hNone _ ho
    · simp at hAll

theorem ordered_eq_ok {outcomes : List (Option Outcome)}
    (hAll : ordered outcomes = some (.ok ())) : ∀ o ∈ outcomes, ∃ x, o = some (.ok x) := by
  fun_induction ordered outcomes with
  | case1 => simp
  | case2 => simp at hAll
  | case3 => simp at hAll
  | case4 x rest ih =>
    intro o ho
    rcases List.mem_cons.mp ho with rfl | ho
    · exact ⟨x, rfl⟩
    · exact ih hAll o ho

/-- All have succeeded only if each of them has, however many there are. -/
theorem all_eq_ok {outcomes : List (Option Outcome)} (hAll : all outcomes = some (.ok ())) :
    ∀ o ∈ outcomes, ∃ x, o = some (.ok x) := by
  unfold all at hAll
  split at hAll
  · exact eager_eq_ok hAll
  · exact ordered_eq_ok hAll

theorem eager_eq_error {outcomes : List (Option Outcome)} {e : Failure}
    (hAll : eager outcomes = some (.error e)) : some (.error e) ∈ outcomes := by
  unfold eager at hAll
  split at hAll
  · next e' hFound =>
    obtain rfl : e' = e := by simpa using hAll
    obtain ⟨o, ho, hIs⟩ := List.exists_of_findSome?_eq_some hFound
    obtain ⟨r, rfl, hFailed⟩ := Option.bind_eq_some_iff.mp hIs
    cases r with
    | ok x => simp at hFailed
    | error e'' =>
      obtain rfl : e'' = e' := by simpa using hFailed
      exact ho
  · split at hAll <;> simp at hAll

theorem ordered_eq_error {outcomes : List (Option Outcome)} {e : Failure}
    (hAll : ordered outcomes = some (.error e)) : some (.error e) ∈ outcomes := by
  fun_induction ordered outcomes with
  | case1 => simp at hAll
  | case2 => simp at hAll
  | case3 e' rest =>
    obtain rfl : e' = e := by simpa using hAll
    exact List.mem_cons_self
  | case4 x rest ih => exact List.mem_cons_of_mem _ (ih hAll)

/-- A failure is that of one of them. -/
theorem all_eq_error {outcomes : List (Option Outcome)} {e : Failure}
    (hAll : all outcomes = some (.error e)) : some (.error e) ∈ outcomes := by
  unfold all at hAll
  split at hAll
  · exact eager_eq_error hAll
  · exact ordered_eq_error hAll

end Join

end Bundleless
