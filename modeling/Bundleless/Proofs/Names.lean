import Bundleless.Proofs.Conduct

/-! # Names and scripts

    What a piece of work registers, and when it hands a script to the page,
    told from its own history alone. A name gets its meaning in three ways:
    a local module is registered under its path, it is registered under the
    specifier that it was asked for by, and a module under a rule is
    registered under its icon and under its name. A script is handed over for
    a name only where the name was looked up and nothing was there.
-/

namespace Bundleless

/-! ## Section 1: The rule -/

/-- The name that is asked for, where it is not that of a local module. -/
def Work.remoteName? (work : Work) : Option String :=
  match work.job with
  | .member name _ | .call name _ =>
    if work.loader.hasLocal && LocalPath.isLocal name then none else some name
  | _ => none

/-- A script is run, or a module is imported. -/
def Op.isScript : Op → Bool
  | .host (.inject _) | .host (.importModule _) => true
  | _ => false

/-- The operation hands a script to the page, or changes what names mean. -/
def Op.isPublishing : Op → Bool
  | .host (.inject _) | .host (.importModule _) | .store (.register ..) | .store .clear => true
  | _ => false

namespace History

variable (hist : History)

/-- The name was looked up, and nothing was there. -/
def Missed (name : String) : Prop := ⟨.store (.registered name), none⟩ ∈ hist

/-- The module got its identity. -/
def Created (i : Instance) : Prop := ∃ n, ⟨.store (.create n), i⟩ ∈ hist

/-- A script was handed to the page. -/
def Scripted : Prop := ∃ x ∈ hist, x.op.isScript = true

/-- Nothing has been registered. -/
def Unregistered : Prop := ∀ key i, ⟨.store (.register key i), ()⟩ ∉ hist

/-- No other module than this one has been registered. -/
def RegistersOnly (i : Instance) : Prop := ∀ key j, ⟨.store (.register key j), ()⟩ ∈ hist → j = i

/-- The name was not there, a script was handed to the page for it, and one module was registered,
    under this name too. -/
structure Supplies (name : String) (i : Instance) : Prop where
  missed : hist.Missed name
  scripted : hist.Scripted
  registers : ⟨.store (.register name i), ()⟩ ∈ hist
  only : hist.RegistersOnly i

end History

/-- The work may register a module under a key: the module that it executes under the path, the local
    module that it was asked for under the specifier, and a module that it loads under a rule under
    the icon and the name. -/
inductive Work.Registers (work : Work) (hist : History) (key : String) (i : Instance) : Prop
  | path (source : String) (hJob : work.job = .execute key source) (hCreated : hist.Created i)
  | specifier (dir : String) (hRequest : work.localRequest? = some (key, dir))
  | rule (name : String) (r : Rule) (hName : work.remoteName? = some name)
      (hMissed : hist.Missed name) (hRule : Rule.find? work.loader.rules name = some r)
      (hKey : key = r.icon name ∨ key = name) (hCreated : hist.Created i)
      (hOnly : hist.RegistersOnly i)

/-- When a piece of work registers a module or hands over a script. For a name this is done once, and
    only if the name was not there. -/
def Work.Publishes (work : Work) (hist : History) : Op → Prop
  | .store (.register key i) => work.Registers hist key i
  | .store .clear => False
  | .host (.inject _) | .host (.importModule _) =>
      ∀ name, work.remoteName? = some name → hist.Missed name ∧ ¬ hist.Scripted
  | _ => True

/-- Whoever asks for a name gets what was found there, or what was loaded for it. -/
def Work.Obtains (work : Work) (hist : History) (r : Outcome) : Prop :=
  ∀ name x, work.remoteName? = some name → r = .ok x → ∃ i, x = some ⟨name, i⟩ ∧
    (⟨.store (.registered name), some i⟩ ∈ hist ∧ ¬ hist.Missed name ∨ hist.Supplies name i)

/-! ## Section 2: Programs that publish nothing -/

/-- The operation asks what a name or a specifier means, or remembers what a specifier means. -/
def Op.isSeeking : Op → Bool
  | .store (.registered _) | .store (.pathOf _) | .store (.setAlias ..) => true
  | _ => false

/-- The operation has nothing to do with what names and specifiers mean, and hands over no script. -/
def Op.isPlain (o : Op) : Bool := !o.isPublishing && !o.isSeeking

theorem Op.isPublishing_of_isPlain {o : Op} (hPlain : o.isPlain = true) :
    o.isPublishing = false := by
  simpa using (Bool.and_eq_true_iff.mp hPlain).1

theorem Op.isSeeking_of_isPlain {o : Op} (hPlain : o.isPlain = true) : o.isSeeking = false := by
  simpa using (Bool.and_eq_true_iff.mp hPlain).2

theorem Op.isSeeking_of_isLoading {o : Op} (hLoading : o.isLoading = true) : o.isSeeking = false := by
  unfold isSeeking
  split
  all_goals first | cases hLoading | rfl

theorem Op.isPlain_of_isSearch {o : Op} (hSearch : o.isSearch = true) : o.isPlain = true := by
  cases o with
  | send | reply | sleep | log => rfl
  | _ => cases hSearch

/-- The operation is one by which a local module is found: what is remembered is looked up, and kept
    up, or the first stage is joined and waited for. -/
def Op.isFinding : Op → Bool
  | .store (.pathOf _) | .store (.setAlias ..) | .store (.resolved _) | .store (.cached _)
  | .shareResolve .. | .await _ => true
  | _ => false

theorem Op.isPublishing_of_isFinding {o : Op} (hFinding : o.isFinding = true) :
    o.isPublishing = false := by
  unfold isPublishing
  split
  all_goals first | cases hFinding | rfl

/-- The program hands over no script, and has nothing to do with what names and specifiers mean. -/
abbrev Load.Plain {α : Type} (p : Load α) : Prop := p.Only (·.isPlain = true)

/-- The program hands over no script, and has nothing to do with what names and specifiers mean. -/
abbrev Attempt.Plain {α : Type} (p : Attempt α) : Prop := p.Only (·.isPlain = true)

theorem Load.Only.plain {α : Type} {p : Load α} (hSearches : p.Searches) : p.Plain :=
  hSearches.imp fun _ => Op.isPlain_of_isSearch

namespace Load

open Attempt (only_pure only_throw only_lift only_mk only_outcome)

variable {l : Loader}

theorem plain_op {o : Op} (hPlain : o.isPlain = true) : (op o).Plain := only_op hPlain

theorem plain_fetchText (url : String) : (fetchText url).Plain := by
  have hRequest : (request .get url).Plain := (searches_request .get url).plain
  refine hRequest.bind fun r => ?_
  split
  · exact only_pure _
  · exact only_throw _

theorem plain_allSucceed (jobs : List Job) : (allSucceed l jobs).Plain :=
  only_allSucceed (fun _ => rfl) (fun _ => rfl) jobs

theorem plain_preload (source : String) (dir : Option String) : (preload l source dir).Plain := by
  unfold preload
  split
  · exact only_pure _
  · exact plain_allSucceed _

theorem plain_preloadDynamic (source : String) : (preloadDynamic l source).Plain :=
  only_preloadDynamic (fun _ => rfl) (fun _ => rfl) (fun _ => Op.isPlain_of_isSearch) source

theorem plain_runSource (path source dir : String) : (runSource l path source dir).Plain :=
  (plain_preload source (some dir)).bind fun _ => (only_mk (plain_op rfl)).bind fun _ =>
    only_mk (plain_op rfl)

theorem plain_runEntry (entry dir : String) : (runEntry l entry dir).Plain := by
  have hJoin : (Attempt.ofExcept (l.page.join entry)).Plain := .done _
  refine hJoin.bind fun url => (plain_fetchText _).bind fun source => ?_
  refine (only_lift (plain_preloadDynamic source)).bind fun _ => ?_
  refine (plain_runSource entry source dir).bind fun exports => ?_
  refine (only_lift (searches_info _ (by decide)).plain).bind fun _ => ?_
  exact only_lift (plain_op rfl)

theorem plain_fetchFirst (basePath : String) (all rest : List String) :
    (fetchFirst l basePath all rest).Plain := by
  induction rest with
  | nil => exact (only_lift (searches_warn _ (by decide)).plain).bind fun _ => only_throw _
  | cons path rest ih =>
    unfold fetchFirst
    split
    · exact ih
    · refine (only_outcome (plain_fetchText _)).bind fun outcome => ?_
      cases outcome with
      | ok source => exact only_pure _
      | error e => exact ih

theorem plain_findAndExecute (basePath : String) : (findAndExecute l basePath).Plain := by
  refine (plain_fetchFirst basePath _ _).bind fun x => ?_
  refine (only_lift (plain_op rfl)).bind fun _ => (only_lift (plain_op rfl)).bind fun found => ?_
  cases found with
  | inl i => exact only_pure _
  | inr t => exact only_mk (plain_op rfl)

theorem finding_remembered (path : Option String) :
    (remembered path).Only (·.isFinding = true) := by
  cases path with
  | none => exact .done _
  | some path =>
    refine Only.bind (only_op rfl) fun found => ?_
    cases found with
    | none => exact .done _
    | some i => exact .done _

/-- Who looks for a local module registers under the specifier only. -/
theorem only_findLocal (specifier dir : String) : (findLocal l specifier dir).Only
    fun o => o.isFinding = true ∨ ∃ i, o = .store (.register specifier i) := by
  unfold findLocal
  generalize LocalPath.key specifier dir = key
  have hFinding : ∀ {o : Op}, o.isFinding = true → (op o).Only fun o =>
      o.isFinding = true ∨ ∃ i, o = .store (.register specifier i) :=
    fun hFinding => only_op (Or.inl hFinding)
  have hRemembered : ∀ path, (remembered path).Only fun o =>
      o.isFinding = true ∨ ∃ i, o = .store (.register specifier i) :=
    fun path => (finding_remembered path).imp fun _ => Or.inl
  have hRegister : ∀ i, Load.Only (fun o => o.isFinding = true ∨
      ∃ i, o = .store (.register specifier i)) (store (.register specifier i)) :=
    fun i => only_op (Or.inr ⟨i, rfl⟩)
  have hLand : ∀ x, Attempt.Only (fun o => o.isFinding = true ∨
      ∃ i, o = .store (.register specifier i)) (land key specifier x) := fun x =>
    (only_lift (hFinding rfl)).bind fun _ => (only_lift (hRegister _)).bind fun _ => only_pure _
  refine (only_lift (hFinding rfl)).bind fun path => ?_
  refine (only_lift (hRemembered path)).bind fun hit => ?_
  cases hit with
  | some x => exact (only_lift (hRegister _)).bind fun _ => only_pure _
  | none =>
    refine Attempt.Only.bind (p := Attempt.ofExcept _) (Only.done _) fun basePath => ?_
    refine (only_lift (hFinding rfl)).bind fun path => ?_
    refine (only_lift (hRemembered path)).bind fun hit => ?_
    cases hit with
    | some x => exact hLand _
    | none =>
      refine Attempt.Only.bind ?_ hLand
      exact (only_lift (hFinding rfl)).bind fun t => only_mk (hFinding rfl)

end Load

/-! ## Section 3: Programs that publish -/

section Publishing

variable {work : Work} {hist : History}

theorem Work.Publishes.of_plain {o : Op} (hPlain : o.isPublishing = false) :
    work.Publishes hist o := by
  cases o with
  | store o =>
    cases o with
    | register key i => cases hPlain
    | clear => cases hPlain
    | _ => trivial
  | host o =>
    cases o with
    | inject url => cases hPlain
    | importModule url => cases hPlain
    | _ => trivial
  | _ => trivial

/-- Work that asks for no name may hand over scripts at any time. -/
theorem Work.Publishes.of_isLoading {o : Op} (hNone : work.remoteName? = none)
    (hLoading : o.isLoading = true) : work.Publishes hist o := by
  cases o with
  | store o =>
    cases o with
    | register key i => cases hLoading
    | clear => cases hLoading
    | _ => trivial
  | host o =>
    cases o with
    | inject url => exact fun name hName => by simp [hNone] at hName
    | importModule url => exact fun name hName => by simp [hNone] at hName
    | _ => trivial
  | _ => trivial

theorem Work.Obtains.of_none {r : Outcome} (hNone : work.remoteName? = none) :
    work.Obtains hist r :=
  fun name x hName => by simp [hNone] at hName

namespace History

variable {name : String} {i : Instance} {o : Op} {r : o.Reply}

theorem Missed.cons (hMissed : hist.Missed name) (x : Answered) : Missed (x :: hist) name :=
  List.mem_cons_of_mem _ hMissed

theorem Created.cons (hCreated : hist.Created i) (x : Answered) : Created (x :: hist) i := by
  obtain ⟨n, hMem⟩ := hCreated
  exact ⟨n, List.mem_cons_of_mem _ hMem⟩

/-- The same module is registered once more. -/
theorem RegistersOnly.register (hOnly : hist.RegistersOnly i) (key : String) :
    RegistersOnly (⟨.store (.register key i), ()⟩ :: hist) i := by
  intro k j hMem
  rcases List.mem_cons.mp hMem with hEq | hMem
  · obtain ⟨hOp, -⟩ := Answered.mk.inj hEq
    injection hOp with hOp
    injection hOp
  · exact hOnly k j hMem

theorem RegistersOnly.cons (hOnly : hist.RegistersOnly i) (hPlain : o.isPublishing = false) :
    RegistersOnly (⟨o, r⟩ :: hist) i := by
  intro key j hMem
  rcases List.mem_cons.mp hMem with hEq | hMem
  · obtain ⟨rfl, -⟩ := Answered.mk.inj hEq
    cases hPlain
  · exact hOnly key j hMem

theorem Unregistered.cons (hNone : hist.Unregistered) (hPlain : o.isPublishing = false) :
    Unregistered (⟨o, r⟩ :: hist) := by
  intro key i hMem
  rcases List.mem_cons.mp hMem with hEq | hMem
  · obtain ⟨rfl, -⟩ := Answered.mk.inj hEq
    cases hPlain
  · exact hNone key i hMem

theorem not_scripted_cons (hNone : ¬ hist.Scripted) (hPlain : o.isPublishing = false) :
    ¬ Scripted (⟨o, r⟩ :: hist) := by
  rintro ⟨x, hMem, hScript⟩
  rcases List.mem_cons.mp hMem with rfl | hMem
  · have hPublishes : o.isPublishing = true := by
      unfold Op.isScript at hScript
      split at hScript
      all_goals simp_all [Op.isPublishing]
    simp [hPublishes] at hPlain
  · exact hNone ⟨x, hMem, hScript⟩

/-- Nothing has been published yet, and the name was not there. -/
structure Before (hist : History) (name : String) : Prop where
  missed : hist.Missed name
  unscripted : ¬ hist.Scripted
  unregistered : hist.Unregistered

/-- The name was not there, and a script was handed over; nothing has been registered yet. -/
structure Between (hist : History) (name : String) : Prop where
  missed : hist.Missed name
  scripted : hist.Scripted
  unregistered : hist.Unregistered

theorem Before.cons (hBefore : hist.Before name) (hPlain : o.isPublishing = false) :
    Before (⟨o, r⟩ :: hist) name where
  missed := hBefore.missed.cons _
  unscripted := not_scripted_cons hBefore.unscripted hPlain
  unregistered := hBefore.unregistered.cons hPlain

theorem Between.cons (hBetween : hist.Between name) (hPlain : o.isPublishing = false) :
    Between (⟨o, r⟩ :: hist) name where
  missed := hBetween.missed.cons _
  scripted := by
    obtain ⟨x, hMem, hScript⟩ := hBetween.scripted
    exact ⟨x, List.mem_cons_of_mem _ hMem, hScript⟩
  unregistered := hBetween.unregistered.cons hPlain

/-- A script is handed over. -/
theorem Before.script (hBefore : hist.Before name) (hScript : o.isScript = true) :
    Between (⟨o, r⟩ :: hist) name where
  missed := hBefore.missed.cons _
  scripted := ⟨_, List.mem_cons_self, hScript⟩
  unregistered := by
    intro key i hMem
    rcases List.mem_cons.mp hMem with hEq | hMem
    · obtain ⟨rfl, -⟩ := Answered.mk.inj hEq
      cases hScript
    · exact hBefore.unregistered key i hMem

theorem Between.registersOnly (hBetween : hist.Between name) (n : Namespace) (i : Instance) :
    RegistersOnly (⟨.store (.create n), i⟩ :: hist) i :=
  fun key j hMem => absurd hMem (hBetween.unregistered.cons rfl key j)

/-- One module gets its identity, and is registered under two keys, the second of which is the name;
    what is noted then changes nothing. -/
theorem Between.supplies (hBetween : hist.Between name) (n : Namespace) (icon : String)
    (hPlain : o.isPublishing = false) : Supplies (⟨o, r⟩ :: ⟨.store (.register name i), ()⟩ ::
      ⟨.store (.register icon i), ()⟩ :: ⟨.store (.create n), i⟩ :: hist) name i where
  missed := (((hBetween.missed.cons _).cons _).cons _).cons _
  scripted := by
    obtain ⟨x, hMem, hScript⟩ := hBetween.scripted
    exact ⟨x, by simp [hMem], hScript⟩
  registers := List.mem_cons_of_mem _ List.mem_cons_self
  only := ((hBetween.registersOnly n i).register icon).register name |>.cons hPlain

end History

namespace Load

open Attempt (obeys_bind obeys_bind_ok obeys_lift_bind only_lift)

variable {name : String}

/-- What publishes nothing leaves everything as before. -/
theorem Only.before {α : Type} {p : Load α} (hPlain : p.Plain) (hBefore : hist.Before name) :
    p.Obeys work.Publishes (fun hist _ => hist.Before name) hist :=
  hPlain.keeps (fun _ _ hOp _ => .of_plain (Op.isPublishing_of_isPlain hOp))
    (fun _ _ _ hOp hBefore => hBefore.cons (Op.isPublishing_of_isPlain hOp)) hBefore

theorem Only.between {α : Type} {p : Load α} (hPlain : p.Plain) (hBetween : hist.Between name) :
    p.Obeys work.Publishes (fun hist _ => hist.Between name) hist :=
  hPlain.keeps (fun _ _ hOp _ => .of_plain (Op.isPublishing_of_isPlain hOp))
    (fun _ _ _ hOp hBetween => hBetween.cons (Op.isPublishing_of_isPlain hOp)) hBetween

/-! ### Scripts -/

theorem publishes_runScript (hName : work.remoteName? = some name) (hBefore : hist.Before name)
    (url : String) :
    (runScript url).run.Obeys work.Publishes (fun hist _ => hist.Between name) hist := by
  have hMay : work.Publishes hist (.host (.inject url)) := by
    intro name' hName'
    obtain rfl : name' = name := Option.some.inj (hName'.symm.trans hName)
    exact ⟨hBefore.missed, hBefore.unscripted⟩
  refine obeys_lift_bind (p := host (.inject url)) (Q := fun hist _ => hist.Between name)
    (Obeys.op hMay fun r => hBefore.script rfl) fun hist₁ outcome _ hBetween => ?_
  cases outcome with
  | ok u => exact Only.between (only_lift (searches_info _ (by decide)).plain) hBetween
  | error e =>
    refine obeys_lift_bind (Only.between (searches_info _ (by decide)).plain hBetween)
      fun hist₂ u _ hBetween => .done hBetween

theorem publishes_importExports (hName : work.remoteName? = some name) (hBefore : hist.Before name)
    (url : String) :
    (importExports url).run.Obeys work.Publishes (fun hist _ => hist.Between name) hist := by
  have hMay : work.Publishes hist (.host (.importModule url)) := by
    intro name' hName'
    obtain rfl : name' = name := Option.some.inj (hName'.symm.trans hName)
    exact ⟨hBefore.missed, hBefore.unscripted⟩
  refine obeys_lift_bind (p := host (.importModule url)) (Q := fun hist _ => hist.Between name)
    (Obeys.op hMay fun r => hBefore.script rfl) fun hist₁ outcome _ hBetween => ?_
  cases outcome with
  | ok exports =>
    exact obeys_lift_bind (Only.between (searches_info _ (by decide)).plain hBetween)
      fun hist₂ u _ hBetween => .done hBetween
  | error e =>
    exact obeys_lift_bind (Only.between (searches_info _ (by decide)).plain hBetween)
      fun hist₂ u _ hBetween => .done hBetween

theorem plain_published (url global : String) : (published url global).Plain := by
  refine (only_lift (plain_op rfl)).bind fun value => ?_
  cases value with
  | some value => exact Attempt.only_pure _
  | none => exact Attempt.only_throw _

theorem publishes_loadIcon (hName : work.remoteName? = some name) (hBefore : hist.Before name)
    (r : Rule) (icon url : String) :
    (loadIcon r icon url).run.Obeys work.Publishes (fun hist _ => hist.Between name) hist := by
  unfold loadIcon
  split
  · exact obeys_bind (publishes_importExports hName hBefore url) (fun _ _ hQ => hQ)
      fun hist₁ exports _ hBetween => .done hBetween
  · refine obeys_bind (publishes_runScript hName hBefore url) (fun _ _ hQ => hQ)
      fun hist₁ u _ hBetween => ?_
    exact obeys_bind (Only.between (plain_published _ _) hBetween) (fun _ _ hQ => hQ)
      fun hist₂ value _ hBetween => .done hBetween

/-! ### Modules under rules -/

/-- A module under a rule is loaded with one script, and registered under its icon and its name. -/
theorem publishes_loadWithRule {l : Loader} {r : Rule} (hLoader : work.loader = l)
    (hName : work.remoteName? = some name) (hRule : Rule.find? l.rules name = some r)
    (hBefore : hist.Before name) : (loadWithRule l name r).run.Obeys work.Publishes
      (fun hist x => ∀ i, x = .ok i → hist.Supplies name i) hist := by
  unfold loadWithRule
  dsimp only
  split
  · exact .done fun i hIs => by cases hIs
  · refine obeys_bind_ok (Only.before (searches_resolveIcon l r name _).plain hBefore)
      fun hist₁ url _ hBefore₁ => ?_
    refine obeys_bind_ok (publishes_loadIcon hName hBefore₁ r (r.icon name) url)
      fun hist₂ x _ hBetween => ?_
    obtain ⟨n, global⟩ := x
    rw [← hLoader] at hRule
    refine .ask trivial fun i => ?_
    have hNew : History.Created (⟨.store (.create n), i⟩ :: hist₂) i := ⟨n, List.mem_cons_self⟩
    have hNothing := hBetween.registersOnly n i
    refine .ask (.rule name r hName (hBetween.missed.cons _) hRule (Or.inl rfl) hNew hNothing)
      fun u => ?_
    have hNew' := hNew.cons ⟨.store (.register (r.icon name) i), u⟩
    have hIcon := hNothing.register (r.icon name)
    refine .ask (.rule name r hName ((hBetween.missed.cons _).cons _) hRule (Or.inr rfl) hNew' hIcon)
      fun _ => ?_
    refine .ask (.of_plain rfl) fun u => .done ?_
    rintro j ⟨⟩
    exact hBetween.supplies n (r.icon name) rfl

/-- What the way of a name says of what was carried out. -/
def RouteOf (l : Loader) (name : String) (hist : History) : Route → Prop
  | .registered i => ⟨.store (.registered name), some i⟩ ∈ hist ∧ ¬ hist.Missed name
  | .rule r => hist.Before name ∧ Rule.find? l.rules name = some r ∧
      (l.hasLocal && LocalPath.isLocal name) = false
  | .localModule => (l.hasLocal && LocalPath.isLocal name) = true
  | .unknown => True

theorem publishes_route {l : Loader} (name : String) (hNothing : ¬ hist.Scripted)
    (hNone : hist.Unregistered) (hUnasked : ¬ hist.Missed name) :
    (route l name).Obeys work.Publishes (fun hist r => RouteOf l name hist r) hist := by
  unfold route
  split
  · next hLocal => exact .done hLocal
  · next hNot =>
    refine .ask trivial fun found => ?_
    cases found with
    | some i =>
      refine .done ⟨List.mem_cons_self, fun hMissed => ?_⟩
      rcases List.mem_cons.mp hMissed with hEq | hMissed
      · obtain ⟨-, hReply⟩ := Answered.mk.inj hEq
        cases eq_of_heq hReply
      · exact hUnasked hMissed
    | none =>
      have hBefore : History.Before (⟨.store (.registered name), none⟩ :: hist) name :=
        ⟨List.mem_cons_self, History.not_scripted_cons hNothing rfl, hNone.cons rfl⟩
      split
      · next r hFind =>
        refine .done ⟨hBefore, ?_, by simpa using hNot⟩
        split at hFind
        · exact hFind
        · cases hFind
      · exact .done trivial

theorem publishes_findLocal {l : Loader} {specifier dir : String}
    (hRequest : work.localRequest? = some (specifier, dir)) :
    (findLocal l specifier dir).run.Obeys work.Publishes (fun _ _ => True) hist := by
  refine Only.obeys (only_findLocal specifier dir) fun hist o hOp => ?_
  rcases hOp with hFinding | ⟨i, rfl⟩
  · exact .of_plain (Op.isPublishing_of_isFinding hFinding)
  · exact .specifier dir hRequest

/-- By a name one gets what is registered, or what is loaded for it. -/
theorem publishes_requireLoaded {dir : Option String}
    (hJob : work.job = .member name dir ∨ work.job = .call name dir) (hNothing : ¬ hist.Scripted)
    (hNone : hist.Unregistered) (hUnasked : ¬ hist.Missed name) : (requireLoaded work.loader name dir).run.Obeys work.Publishes
      (fun hist r => work.Obtains hist (r.map some)) hist := by
  obtain ⟨l, job⟩ := work
  have hRemote : (⟨l, job⟩ : Work).remoteName? =
      if l.hasLocal && LocalPath.isLocal name then none else some name := by
    rcases hJob with rfl | rfl <;> rfl
  have hRequest : (l.hasLocal && LocalPath.isLocal name) = true →
      (⟨l, job⟩ : Work).localRequest? = some (name, dir.getD l.entryDir) := by
    intro hLocal
    rcases hJob with rfl | rfl
    · exact if_pos hLocal
    · exact if_pos hLocal
  refine obeys_lift_bind (publishes_route name hNothing hNone hUnasked) fun hist₁ way _ hWay => ?_
  cases way with
  | registered i =>
    refine .done fun name' x hName hOk => ?_
    have hSame : name = name' := by
      rw [hRemote] at hName
      split at hName
      · cases hName
      · exact Option.some.inj hName
    subst hSame
    cases hOk
    exact ⟨i, rfl, Or.inl hWay⟩
  | unknown => exact .done fun name' x _ hOk => by cases hOk
  | localModule =>
    have hNoName : (⟨l, job⟩ : Work).remoteName? = none := hRemote.trans (if_pos hWay)
    exact (publishes_findLocal (hRequest hWay)).imp fun _ _ _ => .of_none hNoName
  | rule r =>
    obtain ⟨hBefore, hRule, hLocal⟩ := hWay
    have hName : (⟨l, job⟩ : Work).remoteName? = some name := by simp [hRemote, hLocal]
    refine obeys_bind (publishes_loadWithRule rfl hName hRule hBefore)
      (fun _ e _ name' x _ hOk => by cases hOk) fun hist₂ i _ hSupplies => .done ?_
    intro name' x hName' hOk
    obtain rfl : name = name' := Option.some.inj (hName.symm.trans hName')
    cases hOk
    exact ⟨i, rfl, Or.inr (hSupplies i rfl)⟩

end Load

/-! ### All work -/

namespace Work

/-- Work that publishes nothing. -/
theorem publishes_of_plain {p : Load Outcome} (hPlain : p.Plain) (hNone : work.remoteName? = none) :
    p.Obeys work.Publishes work.Obtains hist :=
  (hPlain.obeys fun _ _ hOp => .of_plain (Op.isPublishing_of_isPlain hOp)).imp
    fun _ _ _ => .of_none hNone

/-- The second stage registers the module that it executes under the path. -/
theorem publishes_execute {l : Loader} {path source : String} :
    (program ⟨l, .execute path source⟩).Obeys (Publishes ⟨l, .execute path source⟩)
      (Obtains ⟨l, .execute path source⟩) [] := by
  have hNone : (⟨l, .execute path source⟩ : Work).remoteName? = none := rfl
  have hRun : (Load.runSource l path source (LocalPath.baseDirOf path)).run.Obeys
      (Publishes ⟨l, .execute path source⟩) (fun _ _ => True) [] :=
    (Load.plain_runSource path source _).obeys fun _ _ hOp =>
      .of_plain (Op.isPublishing_of_isPlain hOp)
  have hSource : (Load.executeSource l path source).run.Obeys
      (Publishes ⟨l, .execute path source⟩) (fun _ _ => True) [] := by
    refine Attempt.obeys_bind hRun (fun _ _ _ => trivial) fun hist₁ exports _ _ => ?_
    refine .ask trivial fun i => .ask trivial fun _ => .ask ?_ fun _ => .done trivial
    exact .path source rfl ⟨_, List.mem_cons_of_mem _ List.mem_cons_self⟩
  refine Load.Obeys.bind (Q := fun _ _ => True) ?_ fun _ _ _ _ => .done (.of_none hNone)
  exact hSource.bind fun _ _ _ _ => .ask trivial fun _ => .done trivial

/-- **Every piece of work publishes by its rule**, and obtains what it asks for by name. -/
theorem publishes (work : Work) : work.program.Obeys work.Publishes work.Obtains [] := by
  obtain ⟨l, job⟩ := work
  have hNothing : ¬ History.Scripted [] := by simp [History.Scripted]
  have hNone : History.Unregistered [] := by simp [History.Unregistered]
  have hUnasked : ∀ name, ¬ History.Missed [] name := fun name => List.not_mem_nil
  cases job with
  | resolve basePath =>
    refine publishes_of_plain ?_ rfl
    refine Load.Only.bind ?_ fun r => .done _
    exact Load.Only.bind (Load.plain_findAndExecute basePath) fun r =>
      (Load.plain_op rfl).bind fun _ => .done _
  | execute path source => exact publishes_execute
  | member name dir =>
    refine Load.Obeys.bind (Load.publishes_requireLoaded (Or.inl rfl) hNothing hNone (hUnasked name))
      fun hist r _ hObtains => ?_
    cases r with
    | ok x => exact .done hObtains
    | error e => exact .done fun name' x _ hOk => by cases hOk
  | call name dir =>
    exact Load.Obeys.bind (Load.publishes_requireLoaded (Or.inr rfl) hNothing hNone (hUnasked name))
      fun hist r _ hObtains => .done hObtains
  | tool d =>
    refine Load.Obeys.bind (Load.Only.obeys (Load.nameless_loadTool l d) fun _ _ hLoading =>
      Publishes.of_isLoading rfl hLoading) fun _ _ _ _ => .done (.of_none rfl)
  | load specifier dir =>
    exact Load.Obeys.bind (Load.publishes_findLocal rfl) fun _ _ _ _ => .done (.of_none rfl)
  | preload source dir =>
    exact publishes_of_plain (Load.Only.bind (Load.plain_preload source dir) fun r => .done _) rfl
  | enter entry dir =>
    exact publishes_of_plain (Load.Only.bind (Load.plain_runEntry entry dir) fun r => .done _) rfl

end Work

end Publishing

end Bundleless
