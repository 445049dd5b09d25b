import Bundleless.Load.Startup
import Bundleless.Proofs.Calls

/-! # The phases of startup

    Startup goes through eight phases, one after the other: the configuration,
    the tools, the styles, the library modules, what the entry imports, its
    compilation, its execution and the first paint. The first failure ends it.
    Each phase is a program of its own (`Startup.advance`), and startup is
    nothing but these. What holds between two of them is `Stage.Holds`.
-/

namespace Bundleless

open Load (Calls)

namespace Startup

/-! ## Section 1: Phases -/

/-- How far startup has come, and what it goes on with; the number says how many phases are left. -/
inductive Stage : Nat → Type
  | start : Stage 8
  | configured (c : Config) : Stage 7
  | tooled (c : Config) : Stage 6
  | styled (c : Config) : Stage 5
  | equipped (c : Config) : Stage 4
  | preloaded (c : Config) (source : String) : Stage 3
  | compiled (c : Config) (m : CompiledModule) : Stage 2
  | executed (c : Config) (app : Instance) : Stage 1
  | painted (c : Config) (app : Instance) : Stage 0

namespace Stage

variable {n : Nat}

/-- The configuration, once it is known. -/
def config? : Stage n → Option Config
  | start => none
  | configured c | tooled c | styled c | equipped c | preloaded c _ | compiled c _
  | executed c _ | painted c _ => some c

/-- The library modules that have to be there. -/
def libraries : Stage n → List Descriptor
  | start | configured _ | tooled _ | styled _ => []
  | equipped c | preloaded c _ | compiled c _ | executed c _ | painted c _ => c.modules

/-- The verdicts that have been passed. -/
def verdicts : Stage n → List Happening
  | painted c app => [.rendered c.render.rootId app]
  | _ => []

/-- How the application has been painted. -/
def renders : Stage n → History
  | painted c app => [⟨.host (.render c.render app), .ok ()⟩]
  | _ => []

/-- The element where a failure is shown. -/
def rootId (st : Stage n) : String := (st.config?.map (·.render.rootId)).getD defaultRoot

end Stage

section Programs

open Load

variable (s : Startup)

/-- The loader of the page under a configuration. -/
def loader (c : Config) : Loader := .ofConfig s.page s.settings c

/-- The next phase. -/
def advance : {n : Nat} → Stage (n + 1) → Attempt (Stage n)
  | _, .start => do return .configured (← s.loadConfig)
  | _, .configured c => do
    s.openLog c
    loadTools (s.loader c) c.tools
    return .tooled c
  | _, .tooled c => do
    s.applyStyles c.styles
    return .styled c
  | _, .styled c => do
    store .clear
    loadLibraries (s.loader c) c.modules
    return .equipped c
  | _, .equipped c => do
    let url ← Attempt.ofExcept (s.page.join c.entry)
    let source ← fetchText url.href
    preloadDynamic (s.loader c) source
    preload (s.loader c) source (some c.entryDir)
    return .preloaded c source
  | _, .preloaded c source => do
    return .compiled c (← ExceptT.mk (host (.compile c.entry source)))
  | _, .compiled c m => do
    let exports ← ExceptT.mk (host (.execute m))
    info "tsx:compiled" [("entryFile", .string c.entry), ("entryDir", .string c.entryDir)]
    return .executed c (← store (.create (.ofValue exports)))
  | _, .executed c app => do
    ExceptT.mk (host (.render c.render app))
    return .painted c app

/-- The page is up. -/
def succeed (c : Config) (app : Instance) : Attempt Booted := do
  info "bootstrap:success" [("entryFile", .string c.entry), ("scssFile", .string c.styles)]
  return ⟨s.loader c, app⟩

/-- All phases that are left. -/
def runFrom : {n : Nat} → Stage n → Attempt Booted
  | 0, .painted c app => s.succeed c app
  | _ + 1, st => do runFrom (← s.advance st)

/-- **Startup is its phases, one after the other.** -/
theorem run_eq : s.run = s.runFrom .start := by
  simp only [run, runEntry, runSource, runFrom, advance, succeed, LawfulMonad.bind_assoc,
    LawfulMonad.pure_bind]
  rfl

/-- What a failure leads to. -/
def fail (e : Failure) : Load (Option Booted) := do
  error startupFailed [("message", .string e.message)]
  let c ← store .config
  host (.showError ((c.map (·.render.rootId)).getD defaultRoot) ("Bootstrap error: " ++ e.message))
  return none

/-- What a call of startup comes to. -/
def answer : Except Failure Booted → Load (Option Booted)
  | .ok booted => .done (some booted)
  | .error e => fail e

theorem bootstrap_eq : s.bootstrap = (s.runFrom .start).run >>= answer := by
  rw [← run_eq]
  unfold bootstrap
  refine bind_congr fun r => ?_
  cases r <;> rfl

end Programs

/-! ## Section 2: Between two phases -/

/-- Beside the tasks startup has gone through the phases before a stage, and has carried this out. -/
inductive Passes (s : Startup) (h : Host) (w₀ : World) :
    {n : Nat} → Stage n → History → World → Prop
  | start {w : World} (hLeads : World.Leads h nothing w₀ w) : Passes s h w₀ .start [] w
  | next {n : Nat} {st : Stage (n + 1)} {st' : Stage n} {hist more : History} {w w' : World}
      (hPasses : Passes s h w₀ st hist w)
      (hCalls : Calls h (s.advance st).run w more (.done (.ok st')) w') :
      Passes s h w₀ st' (more ++ hist) w'

/-- The tasks may go on in between. -/
theorem Passes.wait {s : Startup} {h : Host} {w₀ : World} {n : Nat} {st : Stage n} {hist : History}
    {w w' : World} (hPasses : s.Passes h w₀ st hist w) (hLeads : World.Leads h nothing w w') :
    s.Passes h w₀ st hist w' := by
  cases hPasses with
  | start hFirst => exact .start (hFirst.trans hLeads)
  | next hBefore hCalls =>
    exact hBefore.next (hCalls.trans (.of_leads _ hLeads))

end Startup

/-- The renderer was called. -/
def Answered.isRender (x : Answered) : Bool :=
  match x.op with
  | .host (.render ..) => true
  | _ => false

/-- To call the renderer is reserved. -/
theorem Answered.not_isRender {hist : History} (hDiscreet : ∀ x ∈ hist, x.op.isReserved = false) :
    ∀ x ∈ hist, x.isRender = false := by
  intro x hMem
  have hNot := hDiscreet x hMem
  unfold isRender
  split
  · next hOp =>
    rw [hOp] at hNot
    cases hNot
  · rfl

namespace Startup.Stage

variable {n : Nat}

/-- What holds when startup has come to a stage. -/
structure Holds (st : Stage n) (w₀ : World) (hist : History) (w : World) : Prop where
  conducts : w.Conducts
  config : ∀ c, st.config? = some c → w.store.config = some c
  libraries : ∀ d ∈ st.libraries, w.store.registry.contains d.name = true
  href : w.telemetry.href = w₀.telemetry.href
  verdicts : w.verdicts = st.verdicts ++ w₀.verdicts
  renders : hist.filter (·.isRender) = st.renders

/-- What holds when startup has failed in the phase after a stage. -/
structure Failed (st : Stage (n + 1)) (w₀ : World) (hist : History) (w : World) : Prop where
  conducts : w.Conducts
  config : w.store.config = st.config?
  href : w.telemetry.href = w₀.telemetry.href
  verdicts : w.verdicts = w₀.verdicts
  renders : ∀ config app, ⟨.host (.render config app), .ok ()⟩ ∉ hist

/-- What holds after a phase. -/
def After (st : Stage (n + 1)) (w₀ : World) (hist : History) :
    Except Failure (Stage n) → World → Prop
  | .ok st', w => st'.Holds w₀ hist w
  | .error _, w => st.Failed w₀ hist w

variable {w₀ w w' : World} {hist more : History}

theorem holds_start {h : Host} (hConducts : w₀.Conducts)
    (hLeads : World.Leads h nothing w₀ w) : Stage.start.Holds w₀ [] w := by
  obtain ⟨hUnjudged, hConducts'⟩ := hConducts.leads hLeads
  exact ⟨hConducts', fun c hIs => by (cases hIs), fun d hMem => by (cases hMem), hUnjudged.href,
    hUnjudged.verdicts, rfl⟩

/-- Before the last phase nothing is painted. -/
theorem verdicts_of_succ (st : Stage (n + 1)) : st.verdicts = [] := by
  cases st <;> rfl

theorem renders_of_succ (st : Stage (n + 1)) : st.renders = [] := by
  cases st <;> rfl

/-- Before the last phase the renderer has not been called. -/
theorem Holds.not_mem {st : Stage (n + 1)} (hHolds : st.Holds w₀ hist w) (config : RenderConfig)
    (app : Instance) (r : Except Failure Unit) : ⟨.host (.render config app), r⟩ ∉ hist := by
  intro hMem
  have hIn := List.mem_filter.mpr ⟨hMem, (rfl : Answered.isRender _ = true)⟩
  rw [hHolds.renders, renders_of_succ] at hIn
  cases hIn

/-- **A phase in which nothing is painted**, and no verdict passed. It is left to show what the
    phase has loaded. -/
theorem Holds.after {st : Stage (n + 1)} {r : Except Failure (Stage n)}
    (hHolds : st.Holds w₀ hist w) (hConducts : w'.Conducts)
    (hHref : w'.telemetry.href = w.telemetry.href) (hVerdicts : w'.verdicts = w.verdicts)
    (hMore : ∀ x ∈ more, x.isRender = false)
    (hError : ∀ e, r = .error e → w'.store.config = st.config?)
    (hOk : ∀ st', r = .ok st' → (∀ c, st'.config? = some c → w'.store.config = some c) ∧
      (∀ d ∈ st'.libraries, w'.store.registry.contains d.name = true) ∧
      st'.verdicts = [] ∧ st'.renders = []) :
    st.After w₀ (more ++ hist) r w' := by
  have hVerdicts : w'.verdicts = w₀.verdicts := by
    rw [hVerdicts, hHolds.verdicts, st.verdicts_of_succ, List.nil_append]
  cases r with
  | error e =>
    refine ⟨hConducts, hError e rfl, hHref.trans hHolds.href, hVerdicts, fun config app hMem => ?_⟩
    rcases List.mem_append.mp hMem with hMem | hMem
    · cases hMore _ hMem
    · exact hHolds.not_mem config app _ hMem
  | ok st' =>
    obtain ⟨hConfig, hLibraries, hNone, hUncalled⟩ := hOk st' rfl
    have hFilter : more.filter (·.isRender) = [] :=
      List.filter_eq_nil_iff.mpr fun x hx => by simp [hMore x hx]
    refine ⟨hConducts, hConfig, hLibraries, hHref.trans hHolds.href, ?_, ?_⟩
    · rw [hVerdicts, hNone, List.nil_append]
    · rw [List.filter_append, hFilter, hHolds.renders, st.renders_of_succ, hUncalled, List.nil_append]

/-- The next phase does nothing reserved. -/
def isDiscreet : Stage n → Bool
  | start | styled _ | executed .. | painted .. => false
  | configured _ | tooled _ | equipped _ | preloaded .. | compiled .. => true

/-- Such a phase asks for no further library modules. -/
theorem libraries_of_discreet {st : Stage (n + 1)} {st' : Stage n} (hDiscreet : st.isDiscreet = true)
    (hConfig : st'.config? = st.config?) : st'.libraries = st.libraries := by
  cases st <;> simp only [isDiscreet, Bool.false_eq_true] at hDiscreet
  all_goals
    cases st'
    cases hConfig
    rfl

theorem config?_of_discreet {st : Stage n} (hDiscreet : st.isDiscreet = true) :
    ∃ c, st.config? = some c := by
  cases st <;> simp only [isDiscreet, Bool.false_eq_true] at hDiscreet
  all_goals exact ⟨_, rfl⟩

theorem verdicts_of_discreet {st : Stage (n + 1)} {st' : Stage n}
    (hDiscreet : st.isDiscreet = true) : st'.verdicts = [] ∧ st'.renders = [] := by
  cases st <;> simp only [isDiscreet, Bool.false_eq_true] at hDiscreet
  all_goals
    cases st'
    exact ⟨rfl, rfl⟩

end Startup.Stage

/-! ## Section 3: Phase by phase -/

namespace Startup

open Attempt (obeys_bind obeys_bind_ok obeys_ok obeys_lift_bind)

variable {s : Startup} {h : Host} {n : Nat} {w₀ w w' : World} {hist more : History}

/-- The rule allows what startup does under a configuration between its first phase and its last, as
    long as it does nothing reserved. -/
structure PhaseRule (s : Startup) (c : Config) (R : History → Op → Prop) : Prop where
  basic : BasicRule R
  setVerbose : ∀ {hist on}, R hist (.setVerbose on)
  compileStyle : ∀ {hist source}, R hist (.host (.compileStyle source))
  injectCss : ∀ {hist css}, R hist (.host (.injectCss css))
  tool : ∀ {hist d}, R hist (.spawn ⟨s.loader c, .tool d⟩)
  member : ∀ {hist : History} {u source spec}, s.page.join c.entry = .ok u →
    hist.Fetched u.href (some source) → spec ∈ Source.specifiers source →
    R hist (.spawn ⟨s.loader c, .member spec (some c.entryDir)⟩)
  call : ∀ {hist : History} {u source spec}, s.page.join c.entry = .ok u →
    hist.Fetched u.href (some source) → spec ∈ Source.specifiers source →
    R hist (.spawn ⟨s.loader c, .call spec none⟩)

theorem phaseRule_discreetly (s : Startup) (c : Config) : s.PhaseRule c Discreetly where
  basic := basicRule_discreetly
  setVerbose := rfl
  compileStyle := rfl
  injectCss := rfl
  tool := rfl
  member _ _ _ := rfl
  call _ _ _ := rfl

section Rule

variable {c : Config} {R : History → Op → Prop}

theorem obeys_openLog (hRule : s.PhaseRule c R) :
    (s.openLog c).Obeys R (fun _ _ => True) hist := by
  refine .ask hRule.setVerbose fun _ => ?_
  split
  · exact hRule.basic.obeys (Load.nameless_info _ (by decide)).remote
  · exact .done trivial

theorem obeys_applyStyles (hRule : s.PhaseRule c R) (styles : String) :
    (s.applyStyles styles).run.Obeys R (fun _ _ => True) hist := by
  have hBasic := hRule.basic
  refine obeys_bind (Q := fun _ _ => True) (.done trivial) (fun _ _ _ => trivial) fun _ u _ _ => ?_
  refine obeys_bind (Load.obeys_fetchText (hBasic.remote rfl) fun _ => hBasic.remote rfl)
    (fun _ _ _ => trivial) fun _ source _ _ => ?_
  refine obeys_bind (Q := fun _ _ => True) (.ask hRule.compileStyle fun _ => .done trivial)
    (fun _ _ _ => trivial) fun _ css _ _ => ?_
  exact .ask hRule.injectCss fun _ => .done trivial

/-- A phase that does nothing reserved obeys the rule, and keeps to the configuration. -/
theorem obeys_advance (hRule : s.PhaseRule c R) {st : Stage (n + 1)}
    (hDiscreet : st.isDiscreet = true) (hConfig : st.config? = some c) :
    (s.advance st).run.Obeys R (fun _ r => ∀ st', r = .ok st' → st'.config? = some c) hist := by
  have hBasic := hRule.basic
  cases st with
  | start => cases hDiscreet
  | styled c => cases hDiscreet
  | executed c app => cases hDiscreet
  | configured c =>
    cases hConfig
    refine obeys_lift_bind (obeys_openLog hRule) fun _ _ _ _ => ?_
    refine obeys_bind_ok (Load.obeys_allSucceed hBasic fun _ _ job hJob => ?_)
      fun _ _ _ _ => obeys_ok rfl
    obtain ⟨d, -, rfl⟩ := List.mem_map.mp hJob
    exact hRule.tool
  | tooled c =>
    cases hConfig
    exact obeys_bind_ok (obeys_applyStyles hRule c.styles) fun _ _ _ _ => obeys_ok rfl
  | equipped c =>
    cases hConfig
    refine obeys_bind_ok (Q := fun _ r => r = s.page.join c.entry) (.done rfl) fun _ u _ hJoin => ?_
    refine obeys_bind_ok (Load.obeys_fetchText (hBasic.remote rfl) fun _ => hBasic.remote rfl)
      fun hist₁ source _ hFetched => ?_
    -- What was fetched stays in the history.
    have hStays : ∀ hist', hist₁ ⊆ hist' → hist'.Fetched u.href (some source) :=
      fun hist' hSub => hFetched.mono hSub
    refine obeys_lift_bind (Load.obeys_preloadDynamic hBasic fun hist' hSub _ hSpec =>
      hRule.call hJoin.symm (hStays hist' hSub) hSpec) fun hist₂ _ hSub₂ _ => ?_
    exact obeys_bind_ok (Load.obeys_preload hBasic fun hist' hSub _ hSpec =>
      hRule.member hJoin.symm (hStays hist' (List.Subset.trans hSub₂ hSub)) hSpec)
      fun _ _ _ _ => obeys_ok rfl
  | preloaded c source =>
    cases hConfig
    exact obeys_bind_ok (Q := fun _ _ => True) (.ask hBasic.compile fun _ => .done trivial)
      fun _ m _ _ => obeys_ok rfl
  | compiled c m =>
    cases hConfig
    refine obeys_bind_ok (Q := fun _ _ => True) (.ask hBasic.execute fun _ => .done trivial)
      fun _ exports _ _ => ?_
    refine obeys_lift_bind (hBasic.obeys (Load.nameless_info _ (by decide)).remote) fun _ _ _ _ => ?_
    exact .ask (hBasic.remote rfl) fun app => obeys_ok rfl

end Rule

/-- **A phase that does nothing reserved** keeps what holds. -/
theorem Stage.Holds.discreet {st : Stage (n + 1)} {r : Except Failure (Stage n)}
    (hHolds : st.Holds w₀ hist w) (hDiscreet : st.isDiscreet = true)
    (hCalls : Calls h (s.advance st).run w more (.done r) w') :
    st.After w₀ (more ++ hist) r w' := by
  obtain ⟨c, hConfig⟩ := st.config?_of_discreet hDiscreet
  obtain ⟨hUnjudged, hConducts, hMore, hSame⟩ :=
    hCalls.discreet (obeys_advance (phaseRule_discreetly s c) hDiscreet hConfig) hHolds.conducts
  have hKnown : w'.store.config = some c := hUnjudged.config.trans (hHolds.config c hConfig)
  refine hHolds.after hConducts hUnjudged.href hUnjudged.verdicts
    (Answered.not_isRender hMore) (fun e _ => hKnown.trans hConfig.symm) fun st' hIs => ?_
  have hSame : st'.config? = some c := hSame st' hIs
  refine ⟨fun c' hIs => ?_, fun d hMem => ?_, Stage.verdicts_of_discreet hDiscreet⟩
  · rw [hKnown, ← hIs, hSame]
  · rw [Stage.libraries_of_discreet hDiscreet (hSame.trans hConfig.symm)] at hMem
    exact hUnjudged.registered _ (hHolds.libraries d hMem)

/-! ### The configuration -/

/-- Fetch the configuration. -/
def fetchConfig (s : Startup) : Attempt Config := do
  let url ← Attempt.ofExcept (s.page.join s.settings.configUrl)
  let text ← Load.fetchText url.href
  Attempt.ofExcept (Config.read text)

theorem loadConfig_eq : s.loadConfig = (do
    match ← Load.store .config with
    | some c => return c
    | none =>
      let c ← s.fetchConfig
      Load.store (.setConfig c)
      return c) := by
  unfold loadConfig fetchConfig
  refine bind_congr fun known => ?_
  cases known with
  | some c => rfl
  | none => simp

/-- A configuration was read from what was fetched. -/
theorem obeys_fetchConfig {R : History → Op → Prop} (hSend : ∀ url, R hist (.send .get url))
    (hReply : ∀ hist url, R hist (.reply .get url)) :
    s.fetchConfig.run.Obeys R (fun hist r => ∀ c, r = .ok c → ∃ u text,
      s.page.join s.settings.configUrl = .ok u ∧ hist.Fetched u.href (some text) ∧
      Config.read text = .ok c) hist := by
  refine obeys_bind_ok (Q := fun hist' r => hist' = hist ∧ r = s.page.join s.settings.configUrl)
    (.done ⟨rfl, rfl⟩) fun _ u _ hJoin => ?_
  obtain ⟨rfl, hJoin⟩ := hJoin
  refine obeys_bind_ok (Load.obeys_fetchText (hSend _) fun _ => hReply _ _)
    fun _ text _ hFetched => .done fun c hRead => ?_
  exact ⟨u, text, hJoin.symm, hFetched, hRead⟩

/-- A configuration that could be read is kept. -/
theorem calls_setConfig {c : Config} {r : Except Failure Config}
    (hCalls : Calls h (do Load.store (.setConfig c); return c : Attempt Config).run w hist (.done r) w')
    (hConducts : w.Conducts) :
    r = .ok c ∧ w'.Conducts ∧ w'.store.config = some c ∧ w'.telemetry.href = w.telemetry.href ∧
      w'.verdicts = w.verdicts ∧ ∀ x ∈ hist, x.isRender = false := by
  obtain ⟨w₁, u, w₂, own, hLeads, hAnswer, hRest, rfl⟩ :=
    Calls.of_ask (o := .store (.setConfig c)) hCalls
  obtain ⟨-, rfl⟩ := hAnswer.store
  obtain ⟨rfl, hDone, hLeads'⟩ := Calls.of_done (a := Except.ok c) hRest
  obtain ⟨hWait, hConducts₁⟩ := hConducts.leads hLeads
  obtain ⟨hLast, hConducts'⟩ := (hConducts₁.answers hAnswer).leads hLeads'
  refine ⟨Load.done.inj hDone, hConducts', hLast.config, hLast.href.trans hWait.href,
    hLast.verdicts.trans hWait.verdicts, fun x hMem => ?_⟩
  obtain rfl := List.mem_singleton.mp hMem
  rfl

/-- The configuration is known after the first phase, unless that fails; then it was not known
    before either. -/
theorem calls_loadConfig {r : Except Failure Config}
    (hCalls : Calls h s.loadConfig.run w hist (.done r) w') (hConducts : w.Conducts) :
    w'.Conducts ∧ w'.store.config = r.toOption ∧ w'.telemetry.href = w.telemetry.href ∧
      w'.verdicts = w.verdicts ∧ ∀ x ∈ hist, x.isRender = false := by
  rw [loadConfig_eq] at hCalls
  obtain ⟨w₁, known, w₂, own, hLeads, hAnswer, hRest, rfl⟩ := Calls.of_ask (o := .store .config) hCalls
  obtain ⟨hKnown, hIs⟩ := hAnswer.store
  obtain rfl : w₂ = w₁ := hIs
  have hKnown : known = w₂.store.config := hKnown
  obtain ⟨hFirst, hConducts₁⟩ := hConducts.leads hLeads
  -- What is asked first is not the renderer.
  have hOwn : (∀ x ∈ own, x.isRender = false) →
      ∀ x ∈ own ++ [⟨.store .config, known⟩], x.isRender = false :=
    fun hRest => List.forall_mem_append.mpr ⟨hRest, List.forall_mem_singleton.mpr rfl⟩
  cases known with
  | some c =>
    obtain ⟨rfl, hDone, hLeads'⟩ := Calls.of_done (a := Except.ok c) hRest
    obtain rfl : r = .ok c := Load.done.inj hDone
    obtain ⟨hThen, hConducts'⟩ := hConducts₁.leads hLeads'
    have hAll := hFirst.trans hThen
    exact ⟨hConducts', hThen.config.trans hKnown.symm, hAll.href, hAll.verdicts,
      hOwn fun _ hMem => by cases hMem⟩
  | none =>
    rcases Attempt.of_calls_bind (p := s.fetchConfig) hRest with ⟨e, rfl, hFails⟩ |
      ⟨c, before, after, w₃, rfl, hFetch, hKeep⟩
    · obtain ⟨hThen, hConducts', hMore, -⟩ := hFails.discreet (obeys_fetchConfig (fun _ => rfl) fun _ _ => rfl)
        hConducts₁
      have hAll := hFirst.trans hThen
      exact ⟨hConducts', hThen.config.trans hKnown.symm, hAll.href, hAll.verdicts,
        hOwn (Answered.not_isRender hMore)⟩
    · obtain ⟨hThen, hConducts₃, hMore, -⟩ := hFetch.discreet
        (obeys_fetchConfig (fun _ => rfl) fun _ _ => rfl) hConducts₁
      obtain ⟨rfl, hConducts', hConfig, hHref, hVerdicts, hLast⟩ := calls_setConfig hKeep hConducts₃
      have hAll := hFirst.trans hThen
      exact ⟨hConducts', hConfig, hHref.trans hAll.href, hVerdicts.trans hAll.verdicts,
        hOwn (List.forall_mem_append.mpr ⟨hLast, Answered.not_isRender hMore⟩)⟩

theorem Stage.Holds.start {r : Except Failure (Stage 7)} (hHolds : Stage.start.Holds w₀ hist w)
    (hCalls : Calls h (s.advance .start).run w more (.done r) w') :
    Stage.start.After w₀ (more ++ hist) r w' := by
  obtain ⟨read, rfl, hLoad⟩ := Attempt.of_calls_map hCalls
  obtain ⟨hConducts, hConfig, hHref, hVerdicts, hMore⟩ := calls_loadConfig hLoad hHolds.conducts
  refine hHolds.after hConducts hHref hVerdicts hMore (fun e hIs => ?_) fun st' hIs => ?_
  · cases read with
    | error e => exact hConfig
    | ok c => cases hIs
  · cases read with
    | error e => cases hIs
    | ok c =>
      cases hIs
      refine ⟨fun c' hIs => ?_, fun d hMem => by (cases hMem), rfl, rfl⟩
      obtain rfl := Option.some.inj hIs
      exact hConfig

/-! ### The library modules -/

/-- All library modules are there when their phase has succeeded. -/
theorem calls_loadLibraries {l : Loader} {ds : List Descriptor}
    (hCalls : Calls h (Load.loadLibraries l ds).run w hist (.done (.ok ())) w')
    (hConducts : w.Conducts) : ∀ d ∈ ds, w'.store.registry.contains d.name = true := by
  induction ds generalizing w hist with
  | nil => exact fun d hMem => by cases hMem
  | cons d ds ih =>
    rcases Attempt.of_calls_bind hCalls with ⟨e, hIs, -⟩ | ⟨i, before, after, w₁, -, hLoad, hRest⟩
    · cases hIs
    obtain ⟨-, hConducts₁, -, -⟩ :=
      hLoad.discreet (basicRule_discreetly.obeys (Load.nameless_loadLibrary l d).remote) hConducts
    obtain ⟨w₂, u, w₃, own, hLeads, hAnswer, hTail, rfl⟩ :=
      Calls.of_ask (o := .store (.register d.name i)) hRest
    obtain ⟨-, hConducts₂⟩ := hConducts₁.leads hLeads
    have hConducts₃ := hConducts₂.answers hAnswer
    have hThere : w₃.store.registry.contains d.name = true := by
      obtain ⟨-, rfl⟩ := hAnswer.store
      simp [StoreOp.apply, World.withStore, Registry.contains_insert]
    obtain ⟨hThen, -, -, -⟩ :=
      hTail.discreet (basicRule_discreetly.obeys (Load.remote_loadLibraries l ds)) hConducts₃
    intro d' hMem
    rcases List.mem_cons.mp hMem with rfl | hMem
    · exact hThen.registered _ hThere
    · exact ih hTail hConducts₃ d' hMem

theorem Stage.Holds.styled {c : Config} {r : Except Failure (Stage 4)}
    (hHolds : (Stage.styled c).Holds w₀ hist w)
    (hCalls : Calls h (s.advance (.styled c)).run w more (.done r) w') :
    (Stage.styled c).After w₀ (more ++ hist) r w' := by
  obtain ⟨w₁, u, w₂, own, hLeads, hAnswer, hRest, rfl⟩ := Calls.of_ask (o := .store .clear) hCalls
  obtain ⟨loaded, rfl, hLoad⟩ :=
    Attempt.of_calls_map (p := Load.loadLibraries (s.loader c) c.modules) hRest
  obtain ⟨hFirst, hConducts₁⟩ := hHolds.conducts.leads hLeads
  have hConducts₂ := hConducts₁.answers hAnswer
  obtain ⟨-, rfl⟩ := hAnswer.store
  obtain ⟨hThen, hConducts, hOwn, -⟩ :=
    hLoad.discreet (basicRule_discreetly.obeys (Load.remote_loadLibraries _ _)) hConducts₂
  -- The registry is emptied, and nothing else that a verdict depends on.
  have hConfig : w'.store.config = some c := by
    rw [hThen.config, ← hHolds.config c rfl, ← hFirst.config]
    rfl
  have hUncalled : ∀ x ∈ own ++ [⟨.store .clear, u⟩], x.isRender = false :=
    List.forall_mem_append.mpr ⟨Answered.not_isRender hOwn, List.forall_mem_singleton.mpr rfl⟩
  refine hHolds.after hConducts (hThen.href.trans hFirst.href)
    (hThen.verdicts.trans hFirst.verdicts) hUncalled (fun e _ => hConfig) fun st' hIs => ?_
  cases loaded with
  | error e => cases hIs
  | ok _ =>
    cases hIs
    refine ⟨fun c' hIs => ?_, calls_loadLibraries hLoad hConducts₂, rfl, rfl⟩
    obtain rfl := Option.some.inj hIs
    exact hConfig

/-! ### The paint -/

/-- The renderer is called, once. -/
theorem calls_paint {c : Config} {app : Instance} {r : Except Failure (Stage 0)}
    (hCalls : Calls h (s.advance (.executed c app)).run w hist (.done r) w') :
    ∃ w₁ painted w₂, World.Leads h nothing w w₁ ∧
      (Op.host (.render c.render app)).Answers h w₁ painted w₂ ∧ World.Leads h nothing w₂ w' ∧
      hist = [⟨.host (.render c.render app), painted⟩] ∧
      r = painted.map fun _ => .painted c app := by
  obtain ⟨w₁, painted, w₂, own, hLeads, hAnswer, hRest, rfl⟩ :=
    Calls.of_ask (o := .host (.render c.render app)) hCalls
  cases painted with
  | ok _ =>
    obtain ⟨rfl, hDone, hLeads'⟩ := Calls.of_done (a := Except.ok (Stage.painted c app)) hRest
    exact ⟨w₁, _, w₂, hLeads, hAnswer, hLeads', rfl, Load.done.inj hDone⟩
  | error e =>
    obtain ⟨rfl, hDone, hLeads'⟩ := Calls.of_done (a := Except.error e) hRest
    exact ⟨w₁, _, w₂, hLeads, hAnswer, hLeads', rfl, Load.done.inj hDone⟩

theorem Stage.Holds.executed {c : Config} {app : Instance} {r : Except Failure (Stage 0)}
    (hHolds : (Stage.executed c app).Holds w₀ hist w)
    (hCalls : Calls h (s.advance (.executed c app)).run w more (.done r) w') :
    (Stage.executed c app).After w₀ (more ++ hist) r w' := by
  obtain ⟨w₁, painted, w₂, hLeads, hAnswer, hLeads', rfl, rfl⟩ := calls_paint hCalls
  obtain ⟨hFirst, hConducts₁⟩ := hHolds.conducts.leads hLeads
  obtain ⟨hThen, hConducts⟩ := (hConducts₁.answers hAnswer).leads hLeads'
  have hVerdicts : w₁.verdicts = w₀.verdicts := hFirst.verdicts.trans hHolds.verdicts
  rcases hAnswer.render with ⟨-, ⟨rfl, rfl⟩ | ⟨e, rfl, rfl⟩⟩
  · refine ⟨hConducts, fun c' hIs => ?_, fun d hMem => ?_, ?_, ?_, ?_⟩
    · rw [hThen.config]
      exact hFirst.config.trans (hHolds.config c' hIs)
    · exact hThen.registered _ (hFirst.registered _ (hHolds.libraries d hMem))
    · exact (hThen.href.trans hFirst.href).trans hHolds.href
    · rw [hThen.verdicts, World.verdicts_note_of_isVerdict rfl, hVerdicts]
      rfl
    · rw [List.singleton_append, List.filter_cons_of_pos rfl, hHolds.renders]
      rfl
  · have hAll := hFirst.trans hThen
    refine ⟨hConducts, hAll.config.trans (hHolds.config c rfl), hAll.href.trans hHolds.href,
      hThen.verdicts.trans hVerdicts, fun config app' hMem => ?_⟩
    rcases List.mem_cons.mp hMem with hIs | hMem
    · cases hIs
    · exact hHolds.not_mem config app' _ hMem

/-! ### All phases -/

theorem Stage.Holds.advance {st : Stage (n + 1)} {r : Except Failure (Stage n)}
    (hHolds : st.Holds w₀ hist w) (hCalls : Calls h (s.advance st).run w more (.done r) w') :
    st.After w₀ (more ++ hist) r w' := by
  cases st with
  | start => exact hHolds.start hCalls
  | styled c => exact hHolds.styled hCalls
  | executed c app => exact hHolds.executed hCalls
  | configured c => exact hHolds.discreet rfl hCalls
  | tooled c => exact hHolds.discreet rfl hCalls
  | equipped c => exact hHolds.discreet rfl hCalls
  | preloaded c source => exact hHolds.discreet rfl hCalls
  | compiled c m => exact hHolds.discreet rfl hCalls

/-- **What holds at a stage holds whenever startup has come there.** -/
theorem Passes.holds {st : Stage n} (hPasses : s.Passes h w₀ st hist w) (hConducts : w₀.Conducts) :
    st.Holds w₀ hist w := by
  induction hPasses with
  | start hLeads => exact Stage.holds_start hConducts hLeads
  | next _ hCalls ih => exact ih.advance hCalls

/-- **A call of the phases that are left** goes through all of them, or fails in one; then it does
    not begin the next. -/
theorem Passes.runFrom {st : Stage n} {r : Except Failure Booted}
    (hPasses : s.Passes h w₀ st hist w) (hCalls : Calls h (s.runFrom st).run w more (.done r) w') :
    (∃ c app before after w₁, more = after ++ before ∧
      s.Passes h w₀ (.painted c app) (before ++ hist) w₁ ∧
      Calls h (s.succeed c app).run w₁ after (.done r) w') ∨
    ∃ (k : Nat) (st' : Stage (k + 1)) (before during : History) (w₁ : World) (e : Failure),
      more = during ++ before ∧ r = .error e ∧ s.Passes h w₀ st' (before ++ hist) w₁ ∧
      Calls h (s.advance st').run w₁ during (.done (.error e)) w' := by
  induction n generalizing hist w more with
  | zero =>
    cases st with
    | painted c app => exact Or.inl ⟨c, app, [], more, w, (List.append_nil _).symm, hPasses, hCalls⟩
  | succ n ih =>
    rcases Attempt.of_calls_bind hCalls with ⟨e, rfl, hFails⟩ |
      ⟨st', before, after, w₁, rfl, hFirst, hRest⟩
    · exact Or.inr ⟨n, st, [], more, w, e, (List.append_nil _).symm, rfl, hPasses, hFails⟩
    · rcases ih (hPasses.next hFirst) hRest with ⟨c, app, before', after', w₂, rfl, hOn, hEnd⟩ |
        ⟨k, st'', before', during, w₂, e, rfl, rfl, hOn, hFails⟩
      · exact Or.inl ⟨c, app, before' ++ before, after', w₂, List.append_assoc .., by
          rwa [List.append_assoc], hEnd⟩
      · exact Or.inr ⟨k, st'', before' ++ before, during, w₂, e, List.append_assoc .., rfl, by
          rwa [List.append_assoc], hFails⟩

end Startup

end Bundleless
