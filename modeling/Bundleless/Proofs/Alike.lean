import Bundleless.Proofs.Solo
import Bundleless.Proofs.Waiting

/-! # Worlds that are alike but for one request

    When a request for a local module has its answer, it leaves two things: an
    alias under its key, and the module under its specifier. Two worlds that
    differ in nothing else, and in how far the task of the request is, are
    alike; and whoever neither asks for these two nor waits for that task
    cannot tell them apart.
-/

namespace Bundleless

/-! ## Section 1: Stores -/

/-- The second store is the first one, but that the alias under a key may be missing, and that under
    a specifier there may be another module or none. -/
structure Store.SameBut (key specifier : String) (s s' : Store) : Prop where
  rest : s' = { s with aliases := s'.aliases, registry := s'.registry }
  aliases : ∀ k, k ≠ key → s'.aliases.get? k = s.aliases.get? k
  missing : s'.aliases.get? key = none ∨ s'.aliases.get? key = s.aliases.get? key
  registry : ∀ name, name ≠ specifier → s'.registry.get? name = s.registry.get? name
  registered : s'.registry.contains specifier = true → s.registry.contains specifier = true

namespace Store.SameBut

variable {key specifier : String} {s s' : Store}

theorem refl (key specifier : String) (s : Store) : s.SameBut key specifier s :=
  ⟨rfl, fun _ _ => rfl, Or.inr rfl, fun _ _ => rfl, fun hKey => hKey⟩

/-- What is registered under other names is so in both. -/
theorem contains (hSame : s.SameBut key specifier s') {name : String} (hNe : name ≠ specifier) :
    s'.registry.contains name = s.registry.contains name :=
  congrArg Option.isSome (hSame.registry name hNe)

theorem setAlias (hSame : s.SameBut key specifier s') (k path : String) :
    (StoreOp.apply s (.setAlias k path)).2.SameBut key specifier
      (StoreOp.apply s' (.setAlias k path)).2 where
  rest := by
    rw [hSame.rest]
    rfl
  aliases j hNe := by
    simp only [StoreOp.apply, Table.get?_insert, hSame.aliases j hNe]
  missing := by
    simp only [StoreOp.apply, Table.get?_insert]
    split
    · exact Or.inr rfl
    · exact hSame.missing
  registry := hSame.registry
  registered := hSame.registered

theorem register (hSame : s.SameBut key specifier s') (name : String) (i : Instance) :
    (StoreOp.apply s (.register name i)).2.SameBut key specifier
      (StoreOp.apply s' (.register name i)).2 where
  rest := by
    rw [hSame.rest]
    rfl
  aliases := hSame.aliases
  missing := hSame.missing
  registry n hNe := by
    simp only [StoreOp.apply, Registry.get?_insert, hSame.registry n hNe]
  registered hKey := by
    simp only [StoreOp.apply, Registry.contains_insert, Bool.or_eq_true] at hKey ⊢
    exact hKey.imp_right hSame.registered

/-- The alias is remembered in the second store too. -/
theorem setAlias_right (hSame : s.SameBut key specifier s') {path : String}
    (hAlias : s.aliases.get? key = some path) :
    s.SameBut key specifier { s' with aliases := s'.aliases.insert key path } where
  rest := by rw [hSame.rest]
  aliases k hNe := by
    rw [Table.get?_insert, if_neg (Ne.symm hNe), hSame.aliases k hNe]
  missing := by
    rw [Table.get?_insert, if_pos rfl, hAlias]
    exact Or.inr rfl
  registry := hSame.registry
  registered := hSame.registered

/-- The alias is remembered in the first store only. -/
theorem setAlias_left (hSame : s.SameBut key specifier s') {path : String}
    (hMissing : s'.aliases.get? key = none ∨ s'.aliases.get? key = some path) :
    Store.SameBut key specifier { s with aliases := s.aliases.insert key path } s' where
  rest := by
    rw [hSame.rest]
  aliases k hNe := by
    rw [Table.get?_insert, if_neg (Ne.symm hNe), hSame.aliases k hNe]
  missing := by
    rw [Table.get?_insert, if_pos rfl]
    exact hMissing
  registry := hSame.registry
  registered := hSame.registered

/-- A module is registered under the specifier in the first store only. -/
theorem register_left (hSame : s.SameBut key specifier s') (i : Instance) :
    Store.SameBut key specifier { s with registry := s.registry.insert specifier i } s' where
  rest := by
    rw [hSame.rest]
  aliases := hSame.aliases
  missing := hSame.missing
  registry name hNe := by
    rw [Registry.get?_insert, if_neg (Ne.symm hNe), hSame.registry name hNe]
  registered _ := by simp [Registry.contains_insert]

/-- An operation that asks for neither of the two is answered the same, and changes the same. -/
theorem apply (hSame : s.SameBut key specifier s') {o : StoreOp}
    (hAlias : o = .pathOf key → s'.aliases.get? key = s.aliases.get? key)
    (hName : o ≠ .registered specifier) :
    (o.apply s').1 = (o.apply s).1 ∧ (o.apply s).2.SameBut key specifier (o.apply s').2 := by
  cases o with
  | registered name =>
    have hNe : name ≠ specifier := fun hEq => hName (congrArg _ hEq)
    exact ⟨hSame.registry name hNe, hSame⟩
  | pathOf k =>
    refine ⟨?_, hSame⟩
    by_cases hEq : k = key
    · subst hEq
      exact hAlias rfl
    · exact hSame.aliases k hEq
  | register name i => exact ⟨rfl, hSame.register name i⟩
  | setAlias k path => exact ⟨rfl, hSame.setAlias k path⟩
  | clear =>
    refine ⟨rfl, ?_, fun _ _ => rfl, Or.inr rfl, fun _ _ => rfl, fun hKey => hKey⟩
    rw [hSame.rest]
    rfl
  | _ =>
    -- The operation is on another table, and that is the same in both.
    rw [hSame.rest]
    exact ⟨rfl, rfl, hSame.aliases, hSame.missing, hSame.registry, hSame.registered⟩

end Store.SameBut

/-! ## Section 2: Worlds -/

/-- The worlds are alike but for what a request leaves, and for how far the task of the request is:
    the same has happened in both, the same tasks are there, and they have come to the same. -/
structure World.SameBut (c : TaskId) (key specifier : String) (w w' : World) : Prop where
  store : w.store.SameBut key specifier w'.store
  trace : w'.trace = w.trace
  telemetry : w'.telemetry = w.telemetry
  works : ∀ t, w'.workOf? t = w.workOf? t
  outcomes : ∀ t, t ≠ c → w'.outcome? t = w.outcome? t

namespace World

/-- A task with another program has come to what this program is done with. -/
theorem outcome?_setProgram (w : World) (t k : TaskId) (p : Load Outcome) :
    (w.setProgram t p).outcome? k =
      if k = t then (w.workOf? t).bind fun _ => p.result? else w.outcome? k := by
  split
  · next hEq =>
    subst hEq
    simp only [outcome?, setProgram, List.getElem?_modify_eq, workOf?]
    cases w.tasks[k]? with
    | none => rfl
    | some task => cases p <;> rfl
  · next hNe => simp [outcome?, getElem?_setProgram_of_ne _ hNe]

/-- A task that is started has its number, and nothing has become of the others. -/
theorem getElem?_start_of_ne (w : World) (work : Work) {t : TaskId} (hNe : t ≠ w.tasks.length) :
    (w.start work).2.tasks[t]? = w.tasks[t]? := by
  rcases Nat.lt_or_ge t w.tasks.length with hLt | hGe
  · exact (starts_start work).getElem?_of_lt hLt
  · have hLong : (w.start work).2.tasks.length ≤ t := by
      rw [show (w.start work).2.tasks.length = w.tasks.length + 1 from List.length_append]
      exact Nat.lt_of_le_of_ne hGe (Ne.symm hNe)
    rw [List.getElem?_eq_none hLong, List.getElem?_eq_none hGe]

theorem workOf?_start (w : World) (work : Work) (t : TaskId) :
    (w.start work).2.workOf? t = if t = w.tasks.length then some work else w.workOf? t := by
  split
  · next hEq =>
    subst hEq
    exact (starts_start work).workOf?_new
  · next hNe => rw [workOf?, getElem?_start_of_ne w work hNe, workOf?]

/-- A task that is started has come to something only if there is nothing to do for it. -/
theorem outcome?_start (w : World) (work : Work) (t : TaskId) :
    (w.start work).2.outcome? t =
      if t = w.tasks.length then work.program.result? else w.outcome? t := by
  split
  · next hEq =>
    subst hEq
    have hNew : (w.start work).2.tasks[w.tasks.length]? = some ⟨work, work.program⟩ := by
      simp [start]
    rw [outcome?, hNew]
    cases work.program <;> rfl
  · next hNe => rw [outcome?, getElem?_start_of_ne w work hNe, outcome?]

namespace SameBut

variable {c : TaskId} {key specifier : String} {w w' : World} {h : Host}

theorem refl (c : TaskId) (key specifier : String) (w : World) : w.SameBut c key specifier w :=
  ⟨.refl key specifier w.store, rfl, rfl, fun _ => rfl, fun _ _ => rfl⟩

theorem length_eq (hSame : w.SameBut c key specifier w') :
    w'.tasks.length = w.tasks.length := by
  have hNone : ∀ t : TaskId, w'.tasks[t]? = none ↔ w.tasks[t]? = none := by
    intro t
    have hWork := hSame.works t
    simp only [workOf?] at hWork
    rw [← Option.map_eq_none_iff (f := Task.work), hWork, Option.map_eq_none_iff]
  apply Nat.le_antisymm
  · exact List.getElem?_eq_none_iff.mp ((hNone _).mpr (List.getElem?_eq_none (Nat.le_refl _)))
  · exact List.getElem?_eq_none_iff.mp ((hNone _).mp (List.getElem?_eq_none (Nat.le_refl _)))

theorem withStore (hSame : w.SameBut c key specifier w') {s s' : Store}
    (hStore : s.SameBut key specifier s') :
    (w.withStore s).SameBut c key specifier (w'.withStore s') where
  store := hStore
  trace := hSame.trace
  telemetry := hSame.telemetry
  works := hSame.works
  outcomes := hSame.outcomes

theorem note (hSame : w.SameBut c key specifier w') (happening : Happening) :
    (w.note happening).SameBut c key specifier (w'.note happening) where
  store := hSame.store
  trace := congrArg (happening :: ·) hSame.trace
  telemetry := hSame.telemetry
  works := hSame.works
  outcomes := hSame.outcomes

theorem start (hSame : w.SameBut c key specifier w') (work : Work) :
    (w.start work).2.SameBut c key specifier (w'.start work).2 where
  store := hSame.store
  trace := hSame.trace
  telemetry := hSame.telemetry
  works t := by
    rw [workOf?_start, workOf?_start, hSame.length_eq, hSame.works]
  outcomes t hNe := by
    rw [outcome?_start, outcome?_start, hSame.length_eq, hSame.outcomes t hNe]

/-- A task goes on in both worlds, and is done in both or in none. -/
theorem setProgram (hSame : w.SameBut c key specifier w') (t : TaskId) {p p' : Load Outcome}
    (hEnds : p'.result? = p.result?) :
    (w.setProgram t p).SameBut c key specifier (w'.setProgram t p') where
  store := hSame.store
  trace := hSame.trace
  telemetry := hSame.telemetry
  works k := by
    rw [workOf?_setProgram, workOf?_setProgram, hSame.works]
  outcomes k hNe := by
    rw [outcome?_setProgram, outcome?_setProgram, hSame.works, hEnds, hSame.outcomes k hNe]

/-- How far the task of the request is does not matter. -/
theorem setProgram_left (hSame : w.SameBut c key specifier w') (p : Load Outcome) :
    (w.setProgram c p).SameBut c key specifier w' where
  store := hSame.store
  trace := hSame.trace
  telemetry := hSame.telemetry
  works k := by
    rw [workOf?_setProgram, hSame.works]
  outcomes k hNe := by
    rw [outcome?_setProgram, if_neg hNe, hSame.outcomes k hNe]

/-- What another task has loaded is the same. -/
theorem loaded?_eq (hSame : w.SameBut c key specifier w') {t : TaskId} (hNe : t ≠ c) :
    w'.loaded? t = w.loaded? t := by
  rw [loaded?, loaded?, hSame.outcomes t hNe]

end SameBut

end World

/-! ## Section 3: Operations -/

/-- Nobody can tell the worlds apart by the operation: it asks neither for the alias, unless that is
    in both, nor for the module under the specifier, it does not wait for the task of the request,
    and what it executes comes to the same. -/
structure Op.Blind (h : Host) (c : TaskId) (key specifier : String) (w w' : World) (o : Op) :
    Prop where
  pathOf : o = .store (.pathOf key) → w'.store.aliases.get? key = w.store.aliases.get? key
  registered : o ≠ .store (.registered specifier)
  execute : ∀ m, o = .host (.execute m) →
    h.execute m w'.store.registry = h.execute m w.store.registry
  render : ∀ config app, o ≠ .host (.render config app)
  waits : ∀ k wanted, o.WaitsFor k wanted → k ≠ c

/-- Who only loads a tool cannot tell. -/
theorem Op.Blind.of_isLoading {h : Host} {c : TaskId} {key specifier : String} {w w' : World} {o : Op}
    (hLoading : o.isLoading = true) : o.Blind h c key specifier w w' where
  pathOf hIs := by
    subst hIs
    cases hLoading
  registered := by
    rintro rfl
    cases hLoading
  execute m hIs := by
    subst hIs
    cases hLoading
  render config app := by
    rintro rfl
    cases hLoading
  waits k wanted hWaits := by
    cases hWaits with
    | _ => cases hLoading

section Operations

variable {h : Host} {c : TaskId} {key specifier : String} {w w' v : World}

/-- Such an operation on the page comes to the same, and does the same. -/
theorem HostOp.perform_sameBut (hSame : w.SameBut c key specifier w') {o : HostOp}
    (hBlind : (Op.host o).Blind h c key specifier w w') :
    (o.perform h w').1 = (o.perform h w).1 ∧
      (o.perform h w).2.SameBut c key specifier (o.perform h w').2 := by
  have hGlobals : w'.store.globals = w.store.globals := by rw [hSame.store.rest]
  have hWith : ∀ g, Store.SameBut key specifier { w.store with globals := g }
      { w'.store with globals := g } := by
    intro g
    have hStore := hSame.store
    refine ⟨?_, hStore.aliases, hStore.missing, hStore.registry, hStore.registered⟩
    rw [hStore.rest]
  cases o with
  | inject url =>
    simp only [perform, hGlobals]
    exact ⟨trivial, (hSame.note _).withStore (hWith _)⟩
  | importModule url =>
    simp only [perform, hGlobals]
    exact ⟨trivial, (hSame.note _).withStore (hWith _)⟩
  | compile path source =>
    simp only [perform]
    split
    · exact ⟨rfl, hSame.note _⟩
    · exact ⟨rfl, hSame⟩
  | execute m => exact ⟨hBlind.execute m rfl, hSame.note _⟩
  | compileStyle source => exact ⟨rfl, hSame⟩
  | injectCss css => exact ⟨rfl, hSame.note _⟩
  | render config app => exact absurd rfl (hBlind.render config app)
  | showError rootId message => exact ⟨rfl, hSame.note _⟩

theorem World.log_sameBut (hSame : w.SameBut c key specifier w') (event : String) (detail : Json)
    (level : Level) :
    (w.log event detail level).SameBut c key specifier (w'.log event detail level) := by
  unfold World.log
  rw [hSame.telemetry]
  split
  · exact hSame.note _
  · exact hSame

theorem mapM_congr {α β : Type} {f g : α → Option β} {xs : List α} (hSame : ∀ x ∈ xs, f x = g x) :
    xs.mapM f = xs.mapM g := by
  induction xs with
  | nil => rfl
  | cons x xs ih =>
    rw [List.mapM_cons, List.mapM_cons, hSame x List.mem_cons_self,
      ih fun y hMem => hSame y (List.mem_cons_of_mem _ hMem)]

/-- Who joins a stage or starts it does the same on the other page. -/
theorem Op.Answers.sameBut_shareResolve {l : Loader} {basePath : String} {k : TaskId}
    (hAnswer : (Op.shareResolve l basePath).Answers h w k v)
    (hSame : w.SameBut c key specifier w') :
    ∃ v', (Op.shareResolve l basePath).Answers h w' k v' ∧ v.SameBut c key specifier v' := by
  have hTable : w'.store.resolving = w.store.resolving := by rw [hSame.store.rest]
  rcases hAnswer.shareResolve with ⟨hEntry, rfl⟩ | ⟨hVacant, rfl, rfl⟩
  · refine ⟨w', .perform ?_, hSame⟩
    simp only [Op.perform, hTable, hEntry]
  · have hPerform : (Op.shareResolve l basePath).perform h w' = some (w.tasks.length,
        (w'.start ⟨l, .resolve basePath⟩).2.withStore
          { w'.store with resolving := w'.store.resolving.insert basePath w.tasks.length }) := by
      simp only [Op.perform, hTable, hVacant, World.start, hSame.length_eq]
    have hStore := hSame.store
    refine ⟨_, .perform hPerform, (hSame.start _).withStore
      ⟨?_, hStore.aliases, hStore.missing, hStore.registry, hStore.registered⟩⟩
    rw [hStore.rest]

theorem Op.Answers.sameBut_shareExecute {l : Loader} {path source : String} {r : Instance ⊕ TaskId}
    (hAnswer : (Op.shareExecute l path source).Answers h w r v)
    (hSame : w.SameBut c key specifier w') :
    ∃ v', (Op.shareExecute l path source).Answers h w' r v' ∧ v.SameBut c key specifier v' := by
  have hExecuting : w'.store.executing = w.store.executing := by rw [hSame.store.rest]
  have hCache : w'.store.cache = w.store.cache := by rw [hSame.store.rest]
  rcases hAnswer.shareExecute with
    ⟨k, rfl, hEntry, rfl⟩ | ⟨i, rfl, hVacant, hCached, rfl⟩ | ⟨rfl, hVacant, hNone, rfl⟩
  · refine ⟨w', .perform ?_, hSame⟩
    simp only [Op.perform, hExecuting, hEntry]
  · refine ⟨w', .perform ?_, hSame⟩
    simp only [Op.perform, hExecuting, hCache, hVacant, hCached]
  · have hPerform : (Op.shareExecute l path source).perform h w' = some (.inr w.tasks.length,
        (w'.start ⟨l, .execute path source⟩).2.withStore
          { w'.store with executing := w'.store.executing.insert path w.tasks.length }) := by
      simp only [Op.perform, hExecuting, hCache, hVacant, hNone, World.start, hSame.length_eq]
    have hStore := hSame.store
    refine ⟨_, .perform hPerform, (hSame.start _).withStore
      ⟨?_, hStore.aliases, hStore.missing, hStore.registry, hStore.registered⟩⟩
    rw [hStore.rest]

/-- **Whoever cannot tell the worlds apart gets the same answer**, and leaves the worlds alike. -/
theorem Op.Answers.sameBut {o : Op} {r : o.Reply} (hAnswer : o.Answers h w r v)
    (hSame : w.SameBut c key specifier w') (hBlind : o.Blind h c key specifier w w') :
    ∃ v', o.Answers h w' r v' ∧ v.SameBut c key specifier v' := by
  cases o with
  | store o =>
    obtain ⟨rfl, rfl⟩ := hAnswer.store
    have hApply := hSame.store.apply (o := o) (fun hIs => hBlind.pathOf (congrArg _ hIs))
      fun hIs => hBlind.registered (congrArg _ hIs)
    refine ⟨w'.withStore (o.apply w'.store).2, .perform ?_, hSame.withStore hApply.2⟩
    rw [← hApply.1]
    rfl
  | host o =>
    have hBoth := HostOp.perform_sameBut hSame hBlind
    cases hAnswer.becomes with
    | host o =>
      refine ⟨(o.perform h w').2, .perform ?_, hBoth.2⟩
      exact congrArg some (Prod.ext hBoth.1 rfl)
    | same _ _ hLeaves => cases hLeaves
  | send method url =>
    cases hAnswer.becomes with
    | send => exact ⟨_, .perform rfl, hSame.note _⟩
    | same _ _ hLeaves => cases hLeaves
  | reply method url =>
    cases hAnswer with
    | reply _ _ r => exact ⟨w', .reply method url r, hSame⟩
    | perform hPerform => cases hPerform
  | sleep ms =>
    cases hAnswer with
    | wake => exact ⟨w', .wake ms, hSame⟩
    | perform hPerform => cases hPerform
  | log event detail level =>
    cases hAnswer.becomes with
    | log => exact ⟨_, .perform rfl, World.log_sameBut hSame event detail level⟩
    | same _ _ hLeaves => cases hLeaves
  | setVerbose on =>
    cases hAnswer.becomes with
    | setVerbose =>
      refine ⟨_, .perform rfl, hSame.store, hSame.trace, ?_, hSame.works, hSame.outcomes⟩
      exact congrArg (fun t : Telemetry => { t with verbose := on }) hSame.telemetry
    | same _ _ hLeaves => cases hLeaves
  | spawn work =>
    obtain ⟨rfl, rfl⟩ := hAnswer.spawn
    refine ⟨_, .perform ?_, hSame.start work⟩
    rw [← hSame.length_eq]
    rfl
  | shareResolve l basePath => exact hAnswer.sameBut_shareResolve hSame
  | shareExecute l path source => exact hAnswer.sameBut_shareExecute hSame
  | await k =>
    obtain ⟨hDone, rfl⟩ := hAnswer.await
    refine ⟨w', .perform ?_, hSame⟩
    rw [Op.perform, hSame.loaded?_eq (hBlind.waits k true (.await k)), hDone]
    rfl
  | allOk ks =>
    obtain ⟨hAll, rfl⟩ := hAnswer.allOk
    refine ⟨w', .perform ?_, hSame⟩
    have hOutcomes : ks.map w'.outcome? = ks.map v.outcome? :=
      List.map_congr_left fun k hMem => hSame.outcomes k (hBlind.waits k false (.allOk hMem))
    rw [Op.perform, hOutcomes, hAll]
    rfl
  | allDone ks =>
    obtain ⟨hDone, rfl⟩ := hAnswer.allDone
    refine ⟨w', .perform ?_, hSame⟩
    have hAll : ks.mapM w'.loaded? = ks.mapM v.loaded? :=
      mapM_congr fun k hMem => hSame.loaded?_eq (hBlind.waits k true (.allDone hMem))
    rw [Op.perform, hAll, hDone]
    rfl

end Operations

end Bundleless
