import Bundleless.Proofs.Calls
import Bundleless.Proofs.LocalRuns
import Bundleless.Proofs.Names
import Bundleless.Proofs.Registered
import Bundleless.Proofs.Replay
import Bundleless.World.Site

/-! # What a declared library is bound to

    The libraries of a page are registered under the names that the
    configuration declares. Local modules and modules under rules are
    registered beside them, in the same registry, and a key that is
    registered again gets the new module. So a library can be replaced by
    something that was never asked for by its name: by a local module whose
    path is this name, and by a module of another name whose icon it is.
    Nothing else replaces it.
-/

namespace Bundleless

open Load (Calls)

/-! ## Section 1: Programs that spare a key -/

/-- The operation leaves alone what is registered under a key. -/
def Op.Spares (key : String) (o : Op) : Prop :=
  o ≠ .store .clear ∧ ∀ i, o ≠ .store (.register key i)

/-- The program leaves alone what is registered under a key. -/
def Load.Spares {α : Type} (key : String) (p : Load α) : Prop := p.Only (Op.Spares key)

/-- What registers nothing spares every key. -/
theorem Op.spares_of_isLoading (key : String) {o : Op} (hLoading : o.isLoading = true) :
    o.Spares key := by
  constructor
  · rintro rfl
    cases hLoading
  · rintro i rfl
    cases hLoading

theorem Op.spares_register {key k : String} (hNe : k ≠ key) (i : Instance) :
    (Op.store (.register k i)).Spares key := by
  constructor
  · intro hIs
    cases hIs
  · intro j hIs
    injection hIs with hIs
    injection hIs with hKey _
    exact hNe hKey

namespace Load

open Attempt (only_pure only_lift)

variable {l : Loader} {key : String}

theorem Only.spares {α : Type} {p : Load α} (hNameless : p.Nameless) : p.Spares key :=
  hNameless.imp fun _ => Op.spares_of_isLoading key

/-- To load libraries spares all names but theirs. -/
theorem spares_loadLibraries {ds : List Descriptor} (hNot : ∀ d ∈ ds, d.name ≠ key) :
    (loadLibraries l ds).run.Spares key := by
  induction ds with
  | nil => exact only_pure _
  | cons d ds ih =>
    have hNe : d.name ≠ key := hNot d List.mem_cons_self
    have hLibrary : (loadLibrary l d).run.Spares key := (nameless_loadLibrary l d).spares
    have hRest := ih fun e he => hNot e (List.mem_cons_of_mem _ he)
    refine Attempt.Only.bind hLibrary fun m => ?_
    exact (only_lift (only_op (Op.spares_register hNe m))).bind fun _ => hRest

end Load

/-! ## Section 2: Declared libraries -/

/-- Whatever is under way spares the key: tools, libraries of other names, and modules that are loaded
    under a rule for another name and another icon. -/
def World.Spared (w : World) (key : String) : Prop :=
  ∀ (t : TaskId) (task : Task), w.tasks[t]? = some task → task.program.Spares key

/-- A library is registered under its name, and what is under way leaves it so. -/
structure World.Declared (w : World) (name : String) (m : Instance) : Prop where
  bound : w.store.registry.get? name = some m
  known : m.id < w.store.nextId
  spared : w.Spared name

/-- Only tools are under way. -/
def World.OnlyTools (w : World) : Prop :=
  ∀ (t : TaskId) (task : Task), w.tasks[t]? = some task → task.program.Nameless

section Declaring

variable {h : Host} {asks : Work → Prop} {w w' : World} {α : Type} {key : String}

theorem Op.Answers.get?_of_spares {o : Op} {r : o.Reply} (hAnswer : o.Answers h w r w')
    (hSpares : o.Spares key) : w'.store.registry.get? key = w.store.registry.get? key := by
  have hNone : (Label.act 0 o r).registered? key = none := by
    cases hIs : (Label.act 0 o r).registered? key with
    | none => rfl
    | some i =>
      obtain ⟨t, hEq⟩ := Label.registered?_eq_some hIs
      injection hEq with _ hOp _
      exact absurd hOp (hSpares.2 i)
  rw [hAnswer.registry_get? (t := 0) hSpares.1, hNone]
  rfl

theorem World.onlyTools_empty : World.OnlyTools {} := by
  intro t task hTask
  simp at hTask

theorem World.OnlyTools.of_quiet (hTools : w.OnlyTools) (hQuiet : w.Quiet w') : w'.OnlyTools := by
  intro t task hTask
  rw [hQuiet.tasks] at hTask
  exact hTools t task hTask

/-- What leaves all names alone leaves the registry as it is. -/
theorem Op.Answers.registry_eq_of_isLoading {o : Op} {r : o.Reply} (hAnswer : o.Answers h w r w')
    (hLoading : o.isLoading = true) : w'.store.registry = w.store.registry := by
  cases o with
  | store o =>
    obtain ⟨-, rfl⟩ := hAnswer.store
    cases o with
    | register => cases hLoading
    | clear => cases hLoading
    | _ => rfl
  | _ => exact (hAnswer.registry_eq fun _ hIs => by cases hIs).1

/-- Tools start nothing and register nothing. -/
theorem World.OnlyTools.step {step : Label} (hTools : w.OnlyTools)
    (hStep : World.Step h nothing w step w') : w'.OnlyTools ∧ w.store.nextId ≤ w'.store.nextId ∧
      w'.store.registry = w.store.registry := by
  cases hStep with
  | @act w' t work o next r hTask hAnswer =>
    obtain - | ⟨hLoading, hNext⟩ := hTools t _ hTask
    have hRemote : o.isRemote = true := Op.isRemote_of_isLoading hLoading
    have hQuiet := hAnswer.quiet (Op.isQuiet_of_isFree (Op.isFree_of_isRemote hRemote))
    refine ⟨?_, hAnswer.nextId_le, ?_⟩
    · intro k task hAt
      by_cases hEq : k = t
      · subst hEq
        have hTask' : w'.tasks[k]? = some ⟨work, .ask o next⟩ := by rw [hQuiet.tasks, hTask]
        obtain rfl : ⟨work, next r⟩ = task :=
          Option.some.inj ((World.getElem?_setProgram_self hTask').symm.trans hAt)
        exact hNext r
      · rw [World.getElem?_setProgram_of_ne _ hEq] at hAt
        exact hTools.of_quiet hQuiet k task hAt
    · rw [World.store_setProgram]
      exact hAnswer.registry_eq_of_isLoading hLoading
  | start hAsked => exact hAsked.elim

/-- What a call leaves when it starts no task and only tools are under way: modules that it made have
    got their numbers, and what is registered under a key that it spares is what was registered
    there before. -/
structure Load.Leaves (w w' : World) (hist : History) (p : Load α) : Prop where
  tools : w'.OnlyTools
  nextId : w.store.nextId ≤ w'.store.nextId
  created : ∀ n i, ⟨.store (.create n), i⟩ ∈ hist → i.id < w'.store.nextId
  spared : ∀ key, p.Spares key → w'.store.registry.get? key = w.store.registry.get? key

theorem Load.Calls.leaves {p q : Load α} {hist : History} (hCalls : Calls h p w hist q w')
    (hRemote : p.Remote) (hTools : w.OnlyTools) : Load.Leaves w w' hist p := by
  induction hCalls with
  | refl => exact ⟨hTools, Nat.le_refl _, fun n i hMem => absurd hMem List.not_mem_nil, fun _ _ => rfl⟩
  | @own o next r w w₁ w₂ q hist hAnswer _ ih =>
    obtain - | ⟨hOp, hNext⟩ := hRemote
    have hQuiet := hAnswer.quiet (Op.isQuiet_of_isFree (Op.isFree_of_isRemote hOp))
    have hRest := ih (hNext r) (hTools.of_quiet hQuiet)
    refine ⟨hRest.tools, Nat.le_trans hAnswer.nextId_le hRest.nextId, ?_, ?_⟩
    · intro n i hMem
      rcases List.mem_append.mp hMem with hMem | hMem
      · exact hRest.created n i hMem
      · -- The number was the next one when it was given, and the next one is beyond it since.
        obtain ⟨rfl, hReply⟩ := Answered.mk.inj (List.mem_singleton.mp hMem)
        obtain rfl := eq_of_heq hReply
        obtain ⟨rfl, rfl⟩ := hAnswer.store
        exact hRest.nextId
    · intro key hSpares
      obtain - | ⟨hOwn, hSpares⟩ := hSpares
      rw [hRest.spared key (hSpares r), hAnswer.get?_of_spares hOwn]
  | other hStep _ ih =>
    obtain ⟨hTools', hNextId, hSame⟩ := hTools.step hStep
    have hRest := ih hRemote hTools'
    exact ⟨hRest.tools, Nat.le_trans hNextId hRest.nextId, hRest.created,
      fun key hSpares => (hRest.spared key hSpares).trans (congrArg (·.get? key) hSame)⟩

/-- A library that is loaded is a new module. -/
theorem Load.created_loadLibrary (l : Loader) (d : Descriptor) :
    (loadLibrary l d).run.Obeys (fun _ _ => True)
      (fun hist r => ∀ i, r = .ok i → hist.Created i) [] := by
  have hResolve : (resolve l d).run.Obeys (fun _ _ => True) (fun _ _ => True) [] :=
    (searches_resolve l d).obeys fun _ _ _ => trivial
  refine Attempt.obeys_bind_ok hResolve fun hist₁ url _ _ => ?_
  have hExports : (loadExports d url).run.Obeys (fun _ _ => True) (fun _ _ => True) hist₁ :=
    (nameless_loadExports d url).obeys fun _ _ _ => trivial
  refine Attempt.obeys_bind_ok hExports fun hist₂ n _ _ => ?_
  refine .ask trivial fun _ => .ask trivial fun i => .done ?_
  rintro j ⟨⟩
  exact ⟨n, List.mem_cons_self⟩

/-- **Libraries with names of their own are declared once they are loaded**: each is registered under
    its name. -/
theorem Load.declared_of_loadLibraries {l : Loader} {ds : List Descriptor} {hist : History}
    (hCalls : Calls h (loadLibraries l ds).run w hist (.done (.ok ())) w') (hTools : w.OnlyTools)
    (hDistinct : (ds.map (·.name)).Nodup) : ∀ d ∈ ds, ∃ m, w'.Declared d.name m := by
  induction ds generalizing w hist with
  | nil => exact fun d hMem => absurd hMem List.not_mem_nil
  | cons d ds ih =>
    rw [List.map_cons, List.nodup_cons] at hDistinct
    obtain ⟨hNew, hDistinct⟩ := hDistinct
    rcases Attempt.of_calls_bind hCalls with ⟨e, hIs, -⟩ | ⟨m, before, after, w₁, -, hLoad, hThen⟩
    · cases hIs
    -- The library is loaded, then it is registered, and then the others are loaded.
    obtain ⟨w₂, u, w₃, rest, hLeads, hAnswer, hRest, -⟩ := hThen.of_ask
    have hFirst := hLoad.leaves (nameless_loadLibrary l d).remote hTools
    have hWait := (Calls.of_leads (α := Unit) (.done ()) hLeads).leaves (.done ()) hFirst.tools
    have hQuiet := hAnswer.quiet rfl
    have hTools₃ : w₃.OnlyTools := hWait.tools.of_quiet hQuiet
    have hNot : ∀ e ∈ ds, e.name ≠ d.name := by
      intro e hMem hEq
      exact hNew (hEq ▸ List.mem_map_of_mem hMem)
    intro d' hMem
    rcases List.mem_cons.mp hMem with rfl | hMem
    · obtain ⟨-, rfl⟩ := hAnswer.store
      have hLast := hRest.leaves (remote_loadLibraries l ds) hTools₃
      have hCreated : ∃ n, ⟨.store (.create n), m⟩ ∈ before := by
        have hEnd := ((created_loadLibrary l d').came hLoad.came).of_done m rfl
        rwa [List.append_nil] at hEnd
      obtain ⟨n, hCreated⟩ := hCreated
      refine ⟨m, ?_, ?_, fun t task hTask => (hLast.tools t task hTask).spares⟩
      · rw [hLast.spared d'.name (spares_loadLibraries hNot)]
        exact (Registry.get?_insert ..).trans (if_pos rfl)
      · have hId : m.id < w₁.store.nextId := hFirst.created n m hCreated
        exact Nat.lt_of_lt_of_le hId (Nat.le_trans hWait.nextId hLast.nextId)
    · exact ih hRest hTools₃ hDistinct d' hMem

end Declaring

/-! ## Section 3: A library and an icon of the same name -/

namespace Replay

/-- A library that is imported from a URL. -/
def library : Descriptor := {
  name := "react"
  url := some "https://e.test/react.js"
  format := .esm }

/-- A loader with a rule for icons. -/
def iconLoader : Loader := { loader with rules := [{ start := "icons/", format := .esm }] }

/-- A page with the library, and with an icon that is called like it. -/
def iconHost : Host := Site.host {
  modules := [("https://e.test/react.js", .string "the library"),
    ("https://cdn.jsdelivr.net/npm/icons/react.js", .string "the icon")] }

/-- The page once the library is loaded. -/
def withLibrary : World := ((Load.loadLibraries iconLoader [library]).run.drive iconHost {}).2

/-- The icon is asked for by its full name, and loaded. -/
def loadIcon : List Turn :=
  [.ask (.call "icons/react" none), .go 0 2, .reply 0 (found ""), .go 0 7]

/-- What evaluation brings to its end is a call. -/
theorem exists_calls {h : Host} {p : Attempt Unit} {w : World}
    (hDone : ((p.run.drive h w).1.result?.bind (·.toOption)).isSome = true) :
    ∃ hist, Calls h p.run w hist (.done (.ok ())) (p.run.drive h w).2 := by
  obtain ⟨u, hOk⟩ := Option.isSome_iff_exists.mp hDone
  obtain ⟨r, hResult, hIs⟩ := Option.bind_eq_some_iff.mp hOk
  obtain rfl : r = .ok () := eq_ok_of_toOption hIs
  have hGoes := Load.goes_drive h p.run w
  rw [Load.result?_eq_some_iff.mp hResult] at hGoes
  exact Calls.of_goes hGoes

theorem calls_withLibrary : ∃ hist, Calls iconHost (Load.loadLibraries iconLoader [library]).run {}
    hist (.done (.ok ())) withLibrary := exists_calls (by decide +kernel)

theorem declared_withLibrary : ∃ m, withLibrary.Declared "react" m := by
  obtain ⟨hist, hCalls⟩ := calls_withLibrary
  exact Load.declared_of_loadLibraries hCalls World.onlyTools_empty (by decide) library
    List.mem_cons_self

end Replay

/-! ## Section 4: Who replaces a library -/

/-- The work gives the name another meaning, though it was not asked for it: it executes the local
    module whose path is the name, or it loads a module of another name under a rule whose icon is
    the name. -/
inductive Work.Rebinds (name : String) : Work → Prop
  | path (l : Loader) (source : String) : Rebinds name ⟨l, .execute name source⟩
  | icon {work : Work} {other : String} {r : Rule} (hName : work.remoteName? = some other)
      (hOther : other ≠ name) (hRule : Rule.find? work.loader.rules other = some r)
      (hIcon : r.icon other = name) : Rebinds name work

namespace World

variable {h : Host} {asks : Work → Prop} {w₀ w : World} {past : List Label} {name : String}
  {m : Instance}

/-- Nobody starts the registry afresh. -/
theorem Spared.kept (hSpared : w₀.Spared name) (hRun : Run h asks w₀ past w) (t : TaskId) :
    .act t (.store .clear) () ∉ past := by
  intro hAct
  obtain ⟨work, hWork⟩ := hRun.exists_work hAct
  rcases Nat.lt_or_ge t w₀.tasks.length with hOld | hNew
  · exact (hRun.only_of_lt (hSpared t) hOld hAct).1 rfl
  · obtain ⟨before, -, hFalse⟩ := hRun.allowed_of work.publishes hWork hNew hAct
    exact hFalse

/-- Who registers something under the name is at work that was begun since. -/
theorem Spared.le_of_register (hSpared : w₀.Spared name) (hRun : Run h asks w₀ past w)
    {t : TaskId} {i : Instance} (hAct : .act t (.store (.register name i)) () ∈ past) :
    w₀.tasks.length ≤ t := by
  refine Nat.not_lt.mp fun hOld => ?_
  exact (hRun.only_of_lt (hSpared t) hOld hAct).2 i rfl

/-- Where nobody asks for the name as that of a local module, whoever registers something under it
    gives it another meaning by another work, and registers a new module. -/
theorem Declared.rebinds (hDeclared : w₀.Declared name m) (hRun : Run h asks w₀ past w)
    (hOther : ∀ t work dir, w.workOf? t = some work → work.localRequest? ≠ some (name, dir))
    {t : TaskId} {i : Instance} (hAct : .act t (.store (.register name i)) () ∈ past) :
    (∃ work, w.workOf? t = some work ∧ work.Rebinds name) ∧ m.id < i.id := by
  obtain ⟨work, hWork⟩ := hRun.exists_work hAct
  have hNew := hDeclared.spared.le_of_register hRun hAct
  obtain ⟨before, hSub, hRegisters⟩ := hRun.allowed_of work.publishes hWork hNew hAct
  have hFresh : ∀ i, before.Created i → m.id < i.id := by
    rintro i ⟨n, hCreated⟩
    have hLe := hRun.le_id (mem_historyOf.mp (hSub hCreated))
    have hKnown := hDeclared.known
    omega
  cases hRegisters with
  | path source hJob hCreated =>
    obtain ⟨l, job⟩ := work
    obtain rfl : job = .execute name source := hJob
    exact ⟨⟨_, hWork, .path l source⟩, hFresh i hCreated⟩
  | specifier dir hRequest => exact absurd hRequest (hOther t work dir hWork)
  | rule other r hName hMissed hRule hKey hCreated _ =>
    -- The name itself is always found, so who loads a module has asked for another one.
    have hNe : other ≠ name := by
      rintro rfl
      obtain ⟨since, -, hIs⟩ :=
        hRun.of_registered (hDeclared.spared.kept hRun) (mem_historyOf.mp (hSub hMissed))
      rw [hDeclared.bound] at hIs
      cases lastRegistered? other since <;> simp at hIs
    have hIcon : r.icon other = name := by
      rcases hKey with hKey | hKey
      · exact hKey.symm
      · exact absurd hKey.symm hNe
    exact ⟨⟨_, hWork, .icon hName hNe hRule hIcon⟩, hFresh i hCreated⟩

/-- **A declared library keeps its binding just as long as nobody registers under its name.** In every
    run from a moment at which it is registered, and in which nobody asks for a local module by its
    name, `require` gives the library if and only if nothing has been registered there since; and
    only such work registers anything there as executes a local module whose path is the name, or
    loads a module of another name under a rule whose icon is the name. -/
theorem Run.keeps_binding_iff (hRun : Run h asks w₀ past w) (hDeclared : w₀.Declared name m)
    (hOther : ∀ t work dir, w.workOf? t = some work → work.localRequest? ≠ some (name, dir)) :
    ((Load.require name).run.drive h w = (.done (.ok m), w) ↔
      ∀ t i, .act t (.store (.register name i)) () ∉ past) ∧
    ∀ t i, .act t (.store (.register name i)) () ∈ past →
      ∃ work, w.workOf? t = some work ∧ work.Rebinds name := by
  refine ⟨?_, fun t i hAct => (hDeclared.rebinds hRun hOther hAct).1⟩
  have hGet := hRun.registry_get?_of_kept (hDeclared.spared.kept hRun) name
  rw [hDeclared.bound] at hGet
  rw [Load.drive_require_iff, hGet]
  constructor
  · intro hBound
    rw [← lastRegistered?_eq_none_iff]
    -- Whatever was registered last is new, and so it is not the library.
    cases hLast : lastRegistered? name past with
    | none => rfl
    | some i =>
      obtain ⟨t, hAct⟩ := mem_of_lastRegistered? hLast
      have hNewer := (hDeclared.rebinds hRun hOther hAct).2
      rw [hLast] at hBound
      obtain rfl : i = m := Option.some.inj hBound
      exact absurd hNewer (Nat.lt_irrefl _)
  · intro hNone
    rw [lastRegistered?_eq_none_iff.mpr hNone]
    rfl

end World

/-- The icon is loaded, and it is what `react` means from then on. -/
theorem World.Run.keeps_binding_iff_icon : ∃ past w m,
    World.Run Replay.iconHost Replay.iconLoader.Asks Replay.withLibrary past w ∧
    Replay.withLibrary.Declared "react" m ∧
    (∀ t work dir, w.workOf? t = some work → work.localRequest? ≠ some ("react", dir)) ∧
    ((Load.require "react").run.drive Replay.iconHost w = (.done (.ok m), w) ↔
      ∀ t i, .act t (.store (.register "react" i)) () ∉ past) ∧
    ∀ t i, .act t (.store (.register "react" i)) () ∈ past →
      ∃ work, w.workOf? t = some work ∧ work.Rebinds "react" := by
  obtain ⟨m, hDeclared⟩ := Replay.declared_withLibrary
  obtain ⟨past, w, hRun, hNone⟩ := World.exists_run Replay.iconHost Replay.iconLoader
    Replay.withLibrary Replay.loadIcon (fun x => x.2.tasks.all (·.work.localRequest? = none))
    (by decide +kernel)
  have hOther : ∀ t work dir, w.workOf? t = some work →
      work.localRequest? ≠ some ("react", dir) := by
    intro t work dir hWork hRequest
    obtain ⟨task, hTask, rfl⟩ := Option.map_eq_some_iff.mp hWork
    have hIs := List.all_eq_true.mp hNone task (List.mem_of_getElem? hTask)
    rw [of_decide_eq_true hIs] at hRequest
    cases hRequest
  exact ⟨past, w, m, hRun, hDeclared, hOther, hRun.keeps_binding_iff hDeclared hOther⟩

/-- Once the libraries of a configuration are loaded, no requests for other names change what one of
    them is bound to. -/
def Loader.KeepsLibraries (h : Host) (l : Loader) : Prop :=
  ∀ ds hist w₀, (ds.map (·.name)).Nodup →
    Calls h (Load.loadLibraries l ds).run {} hist (.done (.ok ())) w₀ →
    ∀ d ∈ ds, ∀ past w,
      World.Run h (fun work => l.Asks work ∧ (∀ dir, work.job ≠ .call d.name dir) ∧
        ∀ dir, work.job ≠ .load d.name dir) w₀ past w →
      ∀ m, (Load.require d.name).run.drive h w₀ = (.done (.ok m), w₀) →
        (Load.require d.name).run.drive h w = (.done (.ok m), w)

/-- **An icon takes the place of the library that is called like it.** -/
theorem Loader.not_keepsLibraries : ¬ Replay.iconLoader.KeepsLibraries Replay.iconHost := by
  intro hKeeps
  obtain ⟨hist, hCalls⟩ := Replay.calls_withLibrary
  obtain ⟨past, w, hRun, hIcon⟩ := World.exists_run Replay.iconHost Replay.iconLoader
    Replay.withLibrary Replay.loadIcon (fun x =>
      (x.1.all fun step => step.started?.all fun work => work.job = .call "icons/react" none) ∧
      x.2.store.registry.get? "react" ≠ Replay.withLibrary.store.registry.get? "react")
    (by decide +kernel)
  obtain ⟨hStarts, hOther⟩ := of_decide_eq_true hIcon
  obtain ⟨m, hDeclared⟩ := Replay.declared_withLibrary
  -- Nothing but the icon was asked for, and that is not the name of the library.
  have hAsks : ∀ work, .start work ∈ past → Replay.iconLoader.Asks work ∧
      (∀ dir, work.job ≠ .call "react" dir) ∧ ∀ dir, work.job ≠ .load "react" dir := by
    intro work hMem
    have hJob : work.job = .call "icons/react" none :=
      of_decide_eq_true (List.all_eq_true.mp hStarts _ hMem)
    exact ⟨hRun.asks_of_start hMem, by simp [hJob], by simp [hJob]⟩
  have hSame := hKeeps [Replay.library] hist Replay.withLibrary (by decide) hCalls Replay.library
    List.mem_cons_self past w (hRun.restrict hAsks) m (Load.drive_require_iff.mpr hDeclared.bound)
  have hStill : w.store.registry.get? "react" = some m := Load.drive_require_iff.mp hSame
  exact hOther (hStill.trans hDeclared.bound.symm)

end Bundleless
