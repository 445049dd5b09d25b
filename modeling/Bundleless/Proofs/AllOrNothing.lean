import Bundleless.Proofs.Phases
import Bundleless.Proofs.SettlingCalls

/-! # All or nothing

    A call of startup that comes to its end has either painted the page, after
    everything before the paint had succeeded, or it has shown one failure and
    begun no phase after the one that failed. On a static site where the local
    modules that the entry reaches make no cycle, every call comes to its end.
-/

namespace Bundleless

open Load (Calls)

namespace Startup

variable {s : Startup} {h : Host} {w₀ w w' : World} {own : History}

/-! ## Section 1: Verdicts -/

/-- The text that is shown for a failure. -/
def failureText (e : Failure) : String := "Bootstrap error: " ++ e.message

/-- What is noted of a failure. -/
def failureDetail (e : Failure) : Json := .ofFields [("message", .string e.message)]

/-- How a call of startup ends, what it has carried out itself, and what can be seen of it
    afterwards. -/
inductive Verdict (s : Startup) (h : Host) (w₀ : World) : History → Option Booted → World → Prop
  /-- The page is up. The renderer was called once, when all phases before had succeeded and all
      library modules were there; no failure is shown or noted. -/
  | up {c : Config} {app : Instance} {before after : History} {w₁ w₂ w : World}
      (hPasses : s.Passes h w₀ (.executed c app) before w₁)
      (hLibraries : ∀ d ∈ c.modules, w₁.store.registry.contains d.name = true)
      (hPaint : (Op.host (.render c.render app)).Answers h w₁ (.ok ()) w₂)
      (hOnce : ∀ x ∈ after ++ before, x.isRender = false)
      (hVerdicts : w.verdicts = .rendered c.render.rootId app :: w₀.verdicts) :
      Verdict s h w₀ (after ++ ⟨.host (.render c.render app), .ok ()⟩ :: before)
        (some ⟨s.loader c, app⟩) w
  /-- The phase after a stage has failed. The failure is noted once and shown once; nothing was
      painted, and no further phase has begun. -/
  | down {n : Nat} {st : Stage (n + 1)} {e : Failure} {before during : History} {w₁ w₂ w : World}
      (hPasses : s.Passes h w₀ st before w₁)
      (hFails : Calls h (s.advance st).run w₁ during (.done (.error e)) w₂)
      (hUnpainted : ∀ config app, ⟨.host (.render config app), .ok ()⟩ ∉ during ++ before)
      (hVerdicts : w.verdicts = .shown st.rootId (failureText e) ::
        .logged ⟨startupFailed, failureDetail e, .error, w₀.telemetry.href⟩ :: w₀.verdicts) :
      Verdict s h w₀
        (⟨.host (.showError st.rootId (failureText e)), ()⟩ :: ⟨.store .config, st.config?⟩ ::
          ⟨.log startupFailed (failureDetail e) .error, ()⟩ :: (during ++ before)) none w

/-- A failure is noted and shown, where the configuration says if there is one. -/
theorem calls_fail {e : Failure} {r : Option Booted} (hCalls : Calls h (fail e) w own (.done r) w')
    (hConducts : w.Conducts) :
    let root := (w.store.config.map (·.render.rootId)).getD defaultRoot
    r = none ∧
      own = [⟨.host (.showError root (failureText e)), ()⟩, ⟨.store .config, w.store.config⟩,
        ⟨.log startupFailed (failureDetail e) .error, ()⟩] ∧
      w'.verdicts = .shown root (failureText e) ::
        .logged ⟨startupFailed, failureDetail e, .error, w.telemetry.href⟩ :: w.verdicts := by
  obtain ⟨w₁, u₁, w₂, own₁, hLeads₁, hAnswer₁, hRest₁, rfl⟩ :=
    Calls.of_ask (o := .log startupFailed (failureDetail e) .error) hCalls
  obtain ⟨w₃, known, w₄, own₃, hLeads₃, hAnswer₃, hRest₃, rfl⟩ :=
    Calls.of_ask (o := .store .config) hRest₁
  obtain ⟨w₅, u₅, w₆, own₅, hLeads₅, hAnswer₅, hRest₅, rfl⟩ :=
    Calls.of_ask (o := .host (.showError ((known.map (·.render.rootId)).getD defaultRoot)
      (failureText e))) hRest₃
  obtain ⟨rfl, hDone, hLeads₆⟩ := Calls.of_done (a := none) hRest₅
  -- Whatever tasks do between the operations, they pass no verdict.
  obtain ⟨hWait₁, hConducts₁⟩ := hConducts.leads hLeads₁
  obtain ⟨hWait₃, hConducts₃⟩ := (hConducts₁.answers hAnswer₁).leads hLeads₃
  obtain ⟨hWait₅, hConducts₅⟩ := (hConducts₃.answers hAnswer₃).leads hLeads₅
  obtain ⟨hWait₆, -⟩ := (hConducts₅.answers hAnswer₅).leads hLeads₆
  obtain rfl := hAnswer₁.logError
  obtain ⟨hKnown, rfl⟩ := hAnswer₃.store
  obtain rfl := hAnswer₅.showError
  have hKnown : known = w.store.config := by
    rw [hKnown, ← hWait₁.config]
    exact hWait₃.config
  subst hKnown
  refine ⟨Load.done.inj hDone, rfl, ?_⟩
  have hLogged : w₃.verdicts =
      .logged ⟨startupFailed, failureDetail e, .error, w.telemetry.href⟩ :: w.verdicts := by
    rw [hWait₃.verdicts, World.verdicts_note_of_isVerdict rfl, hWait₁.verdicts, hWait₁.href]
  have hKept : w₅.verdicts = w₃.verdicts := hWait₅.verdicts
  rw [hWait₆.verdicts, World.verdicts_note_of_isVerdict rfl, hKept, hLogged]

/-- When the page is up nothing is left to fail. -/
theorem calls_succeed {c : Config} {app : Instance} {r : Except Failure Booted}
    (hCalls : Calls h (s.succeed c app).run w own (.done r) w') (hConducts : w.Conducts) :
    r = .ok ⟨s.loader c, app⟩ ∧ w'.verdicts = w.verdicts ∧ w'.Conducts ∧
      ∀ x ∈ own, x.isRender = false := by
  have hObeys : (s.succeed c app).run.Obeys Discreetly
      (fun _ r => r = .ok ⟨s.loader c, app⟩) [] := .ask rfl fun _ => .done rfl
  obtain ⟨hUnjudged, hConducts', hOwn, hIs⟩ := hCalls.discreet hObeys hConducts
  exact ⟨hIs, hUnjudged.verdicts, hConducts', Answered.not_isRender hOwn⟩

/-- The paint is the last thing that was done, at some moment after all other phases. -/
theorem Passes.painted {c : Config} {app : Instance}
    (hPasses : s.Passes h w₀ (.painted c app) own w) :
    ∃ before w₁ w₂, own = ⟨.host (.render c.render app), .ok ()⟩ :: before ∧
      s.Passes h w₀ (.executed c app) before w₁ ∧
      (Op.host (.render c.render app)).Answers h w₁ (.ok ()) w₂ := by
  cases hPasses with
  | @next _ st _ before more w₁ _ hBefore hCalls =>
    cases st with
    | executed c' app' =>
      obtain ⟨w₂, painted, w₃, hLeads, hAnswer, -, rfl, hIs⟩ := calls_paint hCalls
      cases painted with
      | error e => cases hIs
      | ok _ =>
        obtain ⟨rfl, rfl⟩ := Stage.painted.inj (Except.ok.inj hIs)
        exact ⟨before, w₂, w₃, rfl, hBefore.wait hLeads, hAnswer⟩

/-- **A call of startup that comes to its end is all or nothing.** -/
theorem verdict {r : Option Booted} (hCalls : Calls h s.bootstrap w₀ own (.done r) w)
    (hConducts : w₀.Conducts) : s.Verdict h w₀ own r w := by
  rw [bootstrap_eq] at hCalls
  obtain ⟨result, before, after, w₁, rfl, hRun, hEnd⟩ := Calls.of_bind hCalls
  rcases (Passes.start (.refl w₀)).runFrom hRun with
    ⟨c, app, before', after', w₂, rfl, hPasses, hSucceed⟩ |
    ⟨k, st, before', during, w₂, e, rfl, rfl, hPasses, hFails⟩
  · rw [List.append_nil] at hPasses
    have hHolds := hPasses.holds hConducts
    obtain ⟨rfl, hSame, hConducts₁, hUncalled⟩ := calls_succeed hSucceed hHolds.conducts
    obtain ⟨rfl, hDone, hLeads⟩ := Calls.of_done (a := some (⟨s.loader c, app⟩ : Booted)) hEnd
    obtain rfl := Load.done.inj hDone
    obtain ⟨hLast, -⟩ := hConducts₁.leads hLeads
    obtain ⟨before, w₃, w₄, rfl, hExecuted, hPaint⟩ := hPasses.painted
    have hReady := hExecuted.holds hConducts
    have hNone : ∀ x ∈ before, x.isRender = false := by
      intro x hMem
      exact Bool.eq_false_iff.mpr (List.filter_eq_nil_iff.mp hReady.renders x hMem)
    have hVerdicts : w.verdicts = .rendered c.render.rootId app :: w₀.verdicts := by
      rw [hLast.verdicts, hSame, hHolds.verdicts]
      rfl
    exact .up hExecuted hReady.libraries hPaint (List.forall_mem_append.mpr ⟨hUncalled, hNone⟩)
      hVerdicts
  · rw [List.append_nil] at hPasses
    have hFailed : st.Failed w₀ (during ++ before') w₁ := (hPasses.holds hConducts).advance hFails
    obtain ⟨rfl, rfl, hVerdicts⟩ := calls_fail hEnd hFailed.conducts
    rw [hFailed.config, hFailed.verdicts, hFailed.href] at hVerdicts
    rw [hFailed.config]
    have hDown := Verdict.down hPasses hFails hFailed.renders hVerdicts
    exact hDown

/-- What the schedule comes to is one of these. -/
theorem verdict_of_run {m : Machine} {limit : Option Nat} {r : Option Booted}
    (hResult : (m.run h s.bootstrap limit).result = some r) (hConducts : m.world.Conducts) :
    ∃ own, s.Verdict h m.world own r (m.run h s.bootstrap limit).machine.world := by
  obtain ⟨own, hCalls⟩ := Machine.calls_run hResult
  exact ⟨own, verdict hCalls hConducts⟩

/-! ## Section 2: Static sites -/

section Static

variable (s : Startup) (S : StaticSite) (w₀ : World)

/-- The configuration that startup goes by on a static site, if it finds one: what is known already,
    or what the document says. -/
def configOn? : Option Config :=
  match w₀.store.config with
  | some c => some c
  | none =>
    match s.page.join s.settings.configUrl with
    | .ok u => (Reply.text? (S .get u.href)).bind fun text => (Config.read text).toOption
    | .error _ => none

/-- The local modules that the entry imports reach a finite graph without a cycle. -/
def AcyclicUnder (c : Config) : Prop :=
  ∀ u source, s.page.join c.entry = .ok u → Reply.text? (S .get u.href) = some source →
    ∀ spec ∈ Source.specifiers source, LocalPath.isLocal spec = true →
      (s.loader c).AcyclicFrom S spec c.entryDir

/-- The same, under the configuration that startup goes by. -/
def AcyclicOn : Prop := ∀ c, s.configOn? S w₀ = some c → s.AcyclicUnder S c

end Static

variable {S : StaticSite} {c : Config} {hist : History} {n : Nat}

/-- When startup carries out an operation under a configuration: it starts tools, and what the entry
    imports. -/
def Allows (s : Startup) (c : Config) (hist : History) : Op → Prop
  | .spawn new => (∃ d, new = ⟨s.loader c, .tool d⟩) ∨
      (⟨s.loader c, .enter c.entry c.entryDir⟩ : Work).Spawns hist new
  | .shareResolve .. | .shareExecute .. | .await _ => False
  | .allOk ts => ∀ t ∈ ts, ∃ new, ⟨.spawn new, t⟩ ∈ hist
  | .allDone ts => ∀ t ∈ ts, hist.Called t
  | _ => True

theorem phaseRule_allows (s : Startup) (c : Config) : s.PhaseRule c (s.Allows c) where
  basic := {
    remote := fun hRemote => by
      unfold Op.isRemote at hRemote
      split at hRemote <;> trivial
    compile := trivial
    execute := trivial
    allOk := id
    allDone := id }
  setVerbose := trivial
  compileStyle := trivial
  injectCss := trivial
  tool := Or.inl ⟨_, rfl⟩
  member hJoin hFetched hSpec := Or.inr (.enter hJoin hFetched hSpec)
  call hJoin hFetched hSpec := Or.inr (.enterDynamic hJoin hFetched hSpec)

/-- What the entry imports is grounded: whoever asks for it, it is seen from the directory of the
    entry. -/
theorem AcyclicUnder.grounded (hAcyclic : s.AcyclicUnder S c) (hFrom : hist.From S) {new : Work}
    (hSpawns : (⟨s.loader c, .enter c.entry c.entryDir⟩ : Work).Spawns hist new) :
    (s.loader c).Grounded S new := by
  have hNamed : ∀ {job : Job} {u : Url} {source spec : String} {dir : Option String},
      job = .member spec dir ∨ job = .call spec dir → dir.getD c.entryDir = c.entryDir →
      s.page.join c.entry = .ok u → hist.Fetched u.href (some source) →
      spec ∈ Source.specifiers source → (s.loader c).Grounded S ⟨s.loader c, job⟩ := by
    intro job u source spec dir hNamed hDir hJoin hFetched hSpec
    have hGraph : LocalPath.isLocal spec = true → (s.loader c).AcyclicFrom S spec c.entryDir :=
      hAcyclic u source hJoin (hFrom.text? hFetched) spec hSpec
    refine Loader.AcyclicFrom.grounded (fun _ _ hNew => ?_) ?_ fun spec' d hIs => ?_
    · rcases hNamed with rfl | rfl <;> cases hNew
    · rcases hNamed with rfl | rfl <;> rfl
    · obtain ⟨hLocal, rfl, rfl⟩ := Work.of_localRequest? hNamed hIs
      have hSeen : dir.getD (s.loader c).entryDir = c.entryDir := hDir
      rw [hSeen]
      exact hGraph hLocal
  cases hSpawns with
  | enter hJoin hFetched hSpec => exact hNamed (.inl rfl) rfl hJoin hFetched hSpec
  | enterDynamic hJoin hFetched hSpec => exact hNamed (.inr rfl) rfl hJoin hFetched hSpec

/-- What startup asks for is grounded. -/
theorem guides_allows (hAcyclic : s.AcyclicUnder S c) :
    Load.Guides (s.loader c) S (s.Allows c) := by
  intro hist o hAllows
  cases o with
  | spawn new =>
    refine ⟨trivial, fun hFrom => ?_⟩
    rcases hAllows with ⟨d, rfl⟩ | hSpawns
    · refine ⟨⟨rfl, rfl⟩, Loader.AcyclicFrom.grounded (fun _ _ hNew => by cases hNew) rfl ?_⟩
      exact fun _ _ hIs => by cases hIs
    · have hLoader : new.loader = s.loader c := hSpawns.loader_eq
      have hServes : (s.loader c).Serves new.loader := by
        rw [hLoader]
        exact ⟨rfl, rfl⟩
      exact ⟨hServes, hAcyclic.grounded hFrom hSpawns⟩
  | allOk ts => exact ⟨hAllows, fun _ => trivial⟩
  | allDone ts => exact ⟨hAllows, fun _ => trivial⟩
  | shareResolve => exact hAllows.elim
  | shareExecute => exact hAllows.elim
  | await => exact hAllows.elim
  | _ => exact ⟨trivial, fun _ => trivial⟩

/-- Every phase but the first obeys the rule. -/
theorem obeys_phase {st : Stage (n + 1)} (hConfig : st.config? = some c) :
    (s.advance st).run.Obeys (s.Allows c) (fun _ r => ∀ st', r = .ok st' → st'.config? = some c)
      hist := by
  have hRule := s.phaseRule_allows c
  by_cases hDiscreet : st.isDiscreet = true
  · exact obeys_advance hRule hDiscreet hConfig
  cases st with
  | start => cases hConfig
  | styled c =>
    cases hConfig
    refine .ask trivial fun _ => ?_
    exact Attempt.obeys_bind_ok (p := Load.loadLibraries (s.loader c) c.modules)
      (hRule.basic.obeys (Load.remote_loadLibraries _ _)) fun _ _ _ _ => Attempt.obeys_ok rfl
  | executed c app =>
    cases hConfig
    refine .ask trivial fun painted => ?_
    cases painted with
    | ok _ => exact Attempt.obeys_ok rfl
    | error e => exact .done fun st' hIs => by cases hIs
  | _ => exact absurd rfl hDiscreet

/-- What is left of startup once the configuration is known obeys the rule. -/
theorem obeys_runFrom {st : Stage n} (hConfig : st.config? = some c) :
    (s.runFrom st).run.Obeys (s.Allows c) (fun _ _ => True) hist := by
  induction n generalizing hist with
  | zero =>
    cases st with
    | painted c' app => exact .ask trivial fun _ => .done trivial
  | succ n ih =>
    refine Attempt.obeys_bind (obeys_phase hConfig) (fun _ _ _ => trivial) fun hist' st' _ hSame => ?_
    exact ih (hSame st' rfl)

theorem obeys_fail {R : History → Op → Prop} {e : Failure}
    (hLog : ∀ hist detail, R hist (.log startupFailed detail .error))
    (hConfig : ∀ hist, R hist (.store .config))
    (hShow : ∀ hist root text, R hist (.host (.showError root text))) :
    (fail e).Obeys R (fun _ _ => True) hist :=
  .ask (hLog _ _) fun _ => .ask (hConfig _) fun _ => .ask (hShow _ _ _) fun _ => .done trivial

/-- How a call of startup goes on with the configuration, or without it. -/
def carryOn (s : Startup) : Except Failure Config → Load (Option Booted)
  | .ok c => (s.runFrom (.configured c)).run >>= answer
  | .error e => fail e

theorem bootstrap_eq_carryOn (s : Startup) : s.bootstrap = s.loadConfig.run >>= s.carryOn := by
  rw [bootstrap_eq]
  show ((s.loadConfig >>= fun c => pure (Stage.configured c)) >>= s.runFrom).run >>= answer = _
  rw [bind_assoc, ExceptT.run_bind, bind_assoc]
  refine bind_congr fun r => ?_
  cases r <;> rfl

theorem obeys_carryOn (c : Config) :
    (s.carryOn (.ok c)).Obeys (s.Allows c) (fun _ _ => True) hist := by
  refine (obeys_runFrom rfl).bind fun hist' r _ _ => ?_
  cases r with
  | ok booted => exact .done trivial
  | error e => exact obeys_fail (fun _ _ => trivial) (fun _ => trivial) fun _ _ _ => trivial

/-- With the configuration startup settles, if the modules of the entry make no cycle. -/
theorem settles_carryOn (h : Host) (hIdle : w.Idle) {r : Except Failure Config}
    (hAcyclic : ∀ c, r = .ok c → s.AcyclicUnder S c) :
    (s.carryOn r).Settles h S w fun _ _ => True := by
  cases r with
  | ok c =>
    exact Load.settles_of_guides h (guides_allows (hAcyclic c rfl)) ⟨hIdle.sound, [], obeys_carryOn c, .nil⟩
  | error e =>
    refine Load.settles_of_guides (l := default) h Load.guides_isAlone ⟨hIdle.sound, [], ?_, .nil⟩
    exact obeys_fail (fun _ _ => rfl) (fun _ => rfl) fun _ _ _ => rfl

/-- The document is read before any task is started. -/
theorem obeys_readConfig :
    (do let c ← s.fetchConfig; Load.store (.setConfig c); return c : Attempt Config).run.Obeys
      (fun _ o => o.isAlone = true) (fun hist r => ∀ c, r = .ok c → ∃ u text,
        s.page.join s.settings.configUrl = .ok u ∧ hist.Fetched u.href (some text) ∧
        Config.read text = .ok c) hist := by
  refine Attempt.obeys_bind_ok (obeys_fetchConfig (fun _ => rfl) fun _ _ => rfl)
    fun hist' c _ hRead => .ask rfl fun _ => Attempt.obeys_ok ?_
  obtain ⟨u, text, hJoin, hFetched, hText⟩ := hRead c rfl
  exact ⟨u, text, hJoin, hFetched.mono (List.subset_cons_self _ _), hText⟩

/-- **On a static site a call of startup comes to its end**, if the local modules that the entry
    reaches make no cycle. -/
theorem settles_bootstrap (h : Host) (hIdle : w₀.Idle) (hAcyclic : s.AcyclicOn S w₀) :
    s.bootstrap.Settles h S w₀ fun _ _ => True := by
  rw [bootstrap_eq_carryOn, loadConfig_eq]
  refine Load.Settles.of_idle (o := .store .config) hIdle ⟨_, _, .perform rfl, trivial⟩
    fun known w₁ hAnswer _ => ?_
  obtain ⟨hKnown, hIs⟩ := hAnswer.store
  obtain rfl : w₁ = w₀ := hIs
  have hKnown : known = w₁.store.config := hKnown
  cases known with
  | some c =>
    refine settles_carryOn h hIdle fun c' hIs => hAcyclic c' ?_
    obtain rfl := Except.ok.inj hIs
    rw [configOn?, ← hKnown]
  | none =>
    have hNone : History.From [] S := fun _ _ _ hMem => by cases hMem
    refine Load.Settles.bind_of_idle obeys_readConfig hNone hIdle fun hist' r w' hIdle' hFrom hRead =>
      settles_carryOn h hIdle' fun c hIs => hAcyclic c ?_
    obtain ⟨u, text, hJoin, hFetched, hText⟩ := hRead c hIs
    simp only [configOn?, ← hKnown, hJoin, hFrom.text? hFetched, hText, Option.bind_some,
      Except.toOption]

/-! ## Section 3: All or nothing -/

/-- **Startup is all or nothing.** Whatever the page, the site, the host and the order of replies, a
    call that comes to its end has either painted the page, once, when all before had succeeded, or
    it has shown one failure, and begun no phase after the one that failed. On a static site where
    the local modules that the entry reaches make no cycle, every call comes to its end. -/
theorem all_or_nothing (s : Startup) (h : Host) (hConducts : w₀.Conducts) :
    (∀ own r w, Calls h s.bootstrap w₀ own (.done r) w → s.Verdict h w₀ own r w) ∧
    ∀ S, w₀.Idle → s.AcyclicOn S w₀ →
      s.bootstrap.Settles h S w₀ fun r w => ∃ own, s.Verdict h w₀ own r w := by
  have hVerdict : ∀ own r w, Calls h s.bootstrap w₀ own (.done r) w → s.Verdict h w₀ own r w :=
    fun own r w hCalls => verdict hCalls hConducts
  refine ⟨hVerdict, fun S hIdle hAcyclic => ?_⟩
  exact (settles_bootstrap h hIdle hAcyclic).of_calls fun own r w hCalls => ⟨own, hVerdict own r w hCalls⟩

/-- A page whose configuration leaves everything as it is. -/
def plain : Startup := { page := Replay.pageAt [""] }

end Startup

/-- The entry imports a module that imports nothing. -/
def StaticSite.chain : StaticSite := .ofFiles [
  ("https://e.test/config.json", "{}"),
  ("https://e.test/styles.scss", ""),
  ("https://e.test/main.tsx", "import \"./a.ts\";"),
  ("https://e.test/a.ts", "")]

/-- The entry imports a module that imports itself. -/
def StaticSite.circle : StaticSite := .ofFiles [
  ("https://e.test/config.json", "{}"),
  ("https://e.test/styles.scss", ""),
  ("https://e.test/main.tsx", "import \"./a.ts\";"),
  ("https://e.test/a.ts", "import \"./a.ts\";")]

namespace Startup

theorem acyclicOn_chain : plain.AcyclicOn .chain {} := by
  intro c hConfig u source hJoin hText spec hSpec _ path hTarget
  have hPlain : plain.configOn? .chain {} = some {} := by decide +kernel
  obtain rfl : {} = c := Option.some.inj (hPlain.symm.trans hConfig)
  have hEntry : (plain.page.join ({} : Config).entry).toOption.bind (fun u =>
      Reply.text? (StaticSite.chain .get u.href)) = some "import \"./a.ts\";" := by decide +kernel
  rw [hJoin] at hEntry
  obtain rfl : "import \"./a.ts\";" = source := Option.some.inj (hEntry.symm.trans hText)
  have hSpecs : Source.specifiers "import \"./a.ts\";" = ["./a.ts"] := by decide +kernel
  rw [hSpecs] at hSpec
  obtain rfl := List.mem_singleton.mp hSpec
  have hFound : (plain.loader {}).target? .chain "./a.ts" ({} : Config).entryDir = some "a.ts" := by
    decide +kernel
  obtain rfl := Option.some.inj (hFound.symm.trans hTarget)
  exact .of_order (List.mem_singleton.mpr rfl) (by decide +kernel)

/-- On this page startup paints, and in no order does it fail to come to its end. -/
theorem all_or_nothing_chain : ∃ own b w,
    Calls (Site.host {}) plain.bootstrap {} own (.done (some b)) w ∧
    plain.Verdict (Site.host {}) {} own (some b) w ∧
    plain.bootstrap.Settles (Site.host {}) .chain {} fun r w =>
      ∃ own, plain.Verdict (Site.host {}) {} own r w := by
  have hAll := all_or_nothing plain (Site.host {}) World.idle_empty.conducts
  have hUp : ((Load.goFar (Site.host {}) .chain 100 (plain.bootstrap, {})).1.result?).join.isSome =
      true := by decide +kernel
  obtain ⟨b, hSome⟩ := Option.isSome_iff_exists.mp hUp
  obtain ⟨own, w, hCalls⟩ := Load.exists_calls (Option.join_eq_some_iff.mp hSome)
  exact ⟨own, b, w, hCalls, hAll.1 own _ w hCalls, hAll.2 .chain World.idle_empty acyclicOn_chain⟩

/-- **A circle of imports ends in nothing at all**: startup can come to where nobody can go on any
    more, though every request was answered, and it has neither painted nor failed. -/
theorem not_all_or_nothing : ∃ p w,
    Relation.ReflTransGen (Load.GoesOn (Site.host {}) .circle) (plain.bootstrap, {}) (p, w) ∧
    (∀ y, ¬ Load.GoesOn (Site.host {}) .circle (p, w) y) ∧ ∀ r, p ≠ .done r :=
  Load.exists_rest 100 (by decide +kernel) (by decide +kernel)

end Startup

end Bundleless
