import Bundleless.Proofs.Conduct
import Mathlib.Data.Fintype.Card
import Mathlib.Data.Set.Finite.Basic
import Mathlib.Logic.Relation

/-! # The import graph of a static site

    A static site answers a request always alike. So every path has one text
    or none, every base path is found at one path or at none, and the modules
    that a module imports are the successors in a graph. Where the part of
    the graph that a request reaches is finite and has no cycle, nothing that
    the request leads to goes on forever.
-/

namespace Bundleless

/-- What a request is answered with, at any time. -/
abbrev StaticSite := Method → String → Reply

variable {l l' : Loader} {S : StaticSite}

namespace Loader

/-! ## Section 1: The graph -/

section Graph

variable (l : Loader) (S : StaticSite)

/-- The text at a path, if there is one. -/
def textAt? (path : String) : Option String :=
  match l.page.join ("/" ++ path) with
  | .ok u => Reply.text? (S .get u.href)
  | .error _ => none

/-- The first candidate of a base path where there is a text, and the text. -/
def find? (basePath : String) : Option (String × String) :=
  (LocalPath.candidates l.extensions basePath).findSome? fun path =>
    (l.textAt? S path).map fun source => (path, source)

/-- The path that a specifier is found at, seen from a directory. -/
def target? (specifier dir : String) : Option String :=
  match LocalPath.resolve specifier dir l.page with
  | .ok basePath => (l.find? S basePath).map (·.1)
  | .error _ => none

/-- The local modules that a module imports. -/
def importsOf (path : String) : List String :=
  match l.textAt? S path with
  | some source => ((Source.specifiers source).filter LocalPath.isLocal).filterMap fun s =>
      l.target? S s (LocalPath.baseDirOf path)
  | none => []

/-- The module at a path imports the one at another. -/
def Imports (path path' : String) : Prop := path' ∈ l.importsOf S path

/-- From a path finitely many modules are reached, and none of them reaches itself. -/
structure FiniteAcyclic (path : String) : Prop where
  finite : {p | Relation.ReflTransGen (l.Imports S) path p}.Finite
  acyclic : ∀ p, Relation.ReflTransGen (l.Imports S) path p →
    ¬ Relation.TransGen (l.Imports S) p p

/-- The graph that a request reaches is finite and has no cycle. -/
def AcyclicFrom (specifier dir : String) : Prop :=
  ∀ path, l.target? S specifier dir = some path → l.FiniteAcyclic S path

end Graph

theorem target?_of_find? {specifier dir basePath path source : String}
    (hResolve : LocalPath.resolve specifier dir l.page = .ok basePath)
    (hFind : l.find? S basePath = some (path, source)) : l.target? S specifier dir = some path := by
  unfold target?
  rw [hResolve]
  show (l.find? S basePath).map (·.1) = some path
  rw [hFind]
  rfl

theorem textAt?_of_find? {basePath path source : String}
    (hFind : l.find? S basePath = some (path, source)) : l.textAt? S path = some source := by
  obtain ⟨c, -, hFirst⟩ := List.exists_of_findSome?_eq_some hFind
  obtain ⟨text, hText, hIs⟩ := Option.map_eq_some_iff.mp hFirst
  obtain ⟨rfl, rfl⟩ := Prod.mk.inj hIs
  exact hText

/-- Along a finite graph without cycles one comes to an end. -/
theorem FiniteAcyclic.acc {path : String} (hGraph : l.FiniteAcyclic S path) :
    Acc (fun a b => l.Imports S b a) path := by
  let Reached := {p // Relation.ReflTransGen (l.Imports S) path p}
  -- On what is reached, to be reached from is a strict order of a finite set.
  let Above : Reached → Reached → Prop := fun a b => Relation.TransGen (l.Imports S) b.1 a.1
  have : Finite Reached := hGraph.finite
  have : IsTrans Reached Above := ⟨fun a b c hFirst hThen => hThen.trans hFirst⟩
  have : Std.Irrefl Above := ⟨fun a => hGraph.acyclic a.1 a.2⟩
  have hWf : WellFounded Above := Finite.wellFounded_of_trans_of_irrefl Above
  suffices hAll : ∀ p : Reached, Acc (fun a b => l.Imports S b a) p.1 from hAll ⟨path, .refl⟩
  intro p
  induction p using hWf.induction with
  | _ p ih =>
    refine ⟨p.1, fun q hImports => ?_⟩
    exact ih ⟨q, p.2.tail hImports⟩ (.single hImports)

/-- A graph is finite and has no cycle if its modules can be listed so that each stands before those
    that it imports. -/
theorem FiniteAcyclic.of_order {path : String} {order : List String} (hMem : path ∈ order)
    (hLater : ∀ p ∈ order, ∀ q ∈ l.importsOf S p, q ∈ order ∧ order.idxOf p < order.idxOf q) :
    l.FiniteAcyclic S path := by
  have hReached : ∀ p, Relation.ReflTransGen (l.Imports S) path p → p ∈ order := by
    intro p hReach
    induction hReach with
    | refl => exact hMem
    | tail _ hImports ih => exact (hLater _ ih _ hImports).1
  have hAfter : ∀ p q, p ∈ order → Relation.TransGen (l.Imports S) p q →
      q ∈ order ∧ order.idxOf p < order.idxOf q := by
    intro p q hp hPath
    induction hPath with
    | single hImports => exact hLater p hp _ hImports
    | tail _ hImports ih =>
      obtain ⟨hIn, hLt⟩ := hLater _ ih.1 _ hImports
      exact ⟨hIn, Nat.lt_trans ih.2 hLt⟩
  refine ⟨(List.finite_toSet order).subset fun p hReach => hReached p hReach, fun p hReach hCircle => ?_⟩
  exact Nat.lt_irrefl _ (hAfter p p (hReached p hReach) hCircle).2

end Loader

/-! ## Section 2: What work leads to -/

namespace History

variable {hist : History}

/-- All replies in the history are the site's. -/
def From (hist : History) (S : StaticSite) : Prop :=
  ∀ method url (r : Reply), ⟨.reply method url, r⟩ ∈ hist → r = S method url

theorem From.text? (hFrom : hist.From S) {url : String} {text : Option String}
    (hFetched : hist.Fetched url text) : Reply.text? (S .get url) = text := by
  obtain ⟨r, hMem, hText⟩ := hFetched
  rw [← hFrom .get url r hMem, hText]

/-- What was found first is what is there. -/
theorem From.find? (hFrom : hist.From S) {basePath path source : String}
    (hFound : hist.FoundFirst l basePath path source) :
    l.find? S basePath = some (path, source) := by
  obtain ⟨before, after, hAll, hBefore, u, hJoin, hFetched⟩ := hFound
  unfold Loader.find?
  have hText : l.textAt? S path = some source := by
    unfold Loader.textAt?
    rw [hJoin]
    exact hFrom.text? hFetched
  rw [hAll, List.findSome?_append, List.findSome?_eq_none_iff.mpr ?_]
  · rw [List.findSome?_cons, hText]
    rfl
  · intro c hc
    rw [Option.map_eq_none_iff]
    unfold Loader.textAt?
    cases hOther : l.page.join ("/" ++ c) with
    | error e => rfl
    | ok v => exact hFrom.text? (hBefore c hc v hOther)

end History

namespace Loader

/-- A piece of work starts another one on a static site, or joins it. Whose loader a stage has that
    is joined cannot be told. -/
inductive Leads (l : Loader) (S : StaticSite) : Work → Work → Prop
  | resolve {work : Work} {l' : Loader} {s d basePath : String}
      (hRequest : work.localRequest? = some (s, d))
      (hResolve : LocalPath.resolve s d l.page = .ok basePath) :
      Leads l S work ⟨l', .resolve basePath⟩
  | execute {l' l'' : Loader} {basePath path source : String}
      (hFind : l.find? S basePath = some (path, source)) :
      Leads l S ⟨l', .resolve basePath⟩ ⟨l'', .execute path source⟩
  | spawn {work new : Work} {hist : History} (hFrom : hist.From S) (hServes : l.Serves work.loader)
      (hSpawns : work.Spawns hist new) : Leads l S work new

/-- What the work leads to does not go on forever. -/
def Grounded (l : Loader) (S : StaticSite) (work : Work) : Prop :=
  Acc (fun a b => l.Leads S b a) work

theorem Grounded.leads {work new : Work} (hGrounded : l.Grounded S work)
    (hLeads : l.Leads S work new) : l.Grounded S new :=
  hGrounded.inv hLeads

/-- Work that asks for a local module is grounded if the first stage is. -/
theorem Grounded.of_request {work : Work} (hSpawns : ∀ hist new, ¬ work.Spawns hist new)
    (hStage : work.job.isStage = false)
    (hRequest : ∀ s d basePath l', work.localRequest? = some (s, d) →
      LocalPath.resolve s d l.page = .ok basePath → l.Grounded S ⟨l', .resolve basePath⟩) :
    l.Grounded S work := by
  refine ⟨work, fun new hLeads => ?_⟩
  cases hLeads with
  | resolve hIs hResolve => exact hRequest _ _ _ _ hIs hResolve
  | execute => simp [Job.isStage] at hStage
  | spawn _ _ hNew => exact absurd hNew (hSpawns _ _)

/-- A first stage is grounded if the second stage is, of the path that is found. -/
theorem Grounded.of_find? {basePath : String}
    (hExecute : ∀ path source l', l.find? S basePath = some (path, source) →
      l.Grounded S ⟨l', .execute path source⟩) : l.Grounded S ⟨l', .resolve basePath⟩ := by
  refine ⟨_, fun new hLeads => ?_⟩
  cases hLeads with
  | resolve hIs => cases hIs
  | execute hFind => exact hExecute _ _ _ hFind
  | spawn _ _ hNew => cases hNew

/-- **A second stage is grounded where nothing goes on forever along the imports of its module.** -/
theorem grounded_execute {path : String} (hAcc : Acc (fun a b => l.Imports S b a) path)
    {source : String} (hText : l.textAt? S path = some source) (l' : Loader) :
    l.Grounded S ⟨l', .execute path source⟩ := by
  induction hAcc generalizing source l' with
  | intro path _ ih =>
    refine ⟨_, fun new hLeads => ?_⟩
    cases hLeads with
    | resolve hIs => cases hIs
    | spawn _ _ hNew =>
      obtain ⟨hSpec⟩ := hNew
      refine Grounded.of_request (fun hist new hNew => by cases hNew) rfl
        fun s d basePath l'' hIs hResolve => Grounded.of_find? fun path' source' l₃ hFind => ?_
      -- The module that is found is one of the imports.
      refine ih path' ?_ (textAt?_of_find? hFind) l₃
      obtain ⟨hLocal, rfl, rfl⟩ := Work.of_localRequest? (.inl rfl) hIs
      unfold Imports importsOf
      rw [hText]
      exact List.mem_filterMap.mpr ⟨_, List.mem_filter.mpr ⟨hSpec, hLocal⟩,
        target?_of_find? hResolve hFind⟩

/-- **A request is grounded where the graph that it reaches is finite and has no cycle.** -/
theorem AcyclicFrom.grounded {work : Work} (hSpawns : ∀ hist new, ¬ work.Spawns hist new)
    (hStage : work.job.isStage = false)
    (hAcyclic : ∀ s d, work.localRequest? = some (s, d) → l.AcyclicFrom S s d) :
    l.Grounded S work := by
  refine Grounded.of_request hSpawns hStage fun s d basePath l' hIs hResolve =>
    Grounded.of_find? fun path source l'' hFind => ?_
  have hGraph := hAcyclic s d hIs path (target?_of_find? hResolve hFind)
  exact grounded_execute hGraph.acc (textAt?_of_find? hFind) l''

end Loader

/-! ## Section 3: Conduct on a static site -/

namespace Work

variable {work : Work} {hist : History}

/-- Whom a piece of work starts it leads to. -/
theorem Allows.leads_spawn {new : Work} (hAllows : work.Allows hist (.spawn new))
    (hServes : l.Serves work.loader) (hFrom : hist.From S) : l.Leads S work new :=
  .spawn hFrom hServes hAllows

theorem Spawns.loader_eq {new : Work} (hSpawns : work.Spawns hist new) :
    new.loader = work.loader := by
  cases hSpawns <;> rfl

theorem Allows.leads_resolve {basePath : String}
    (hAllows : work.Allows hist (.shareResolve l' basePath)) (hServes : l.Serves work.loader)
    (l'' : Loader) : l.Leads S work ⟨l'', .resolve basePath⟩ := by
  obtain ⟨rfl, s, d, hRequest, hResolve⟩ := hAllows
  rw [hServes.1] at hResolve
  exact .resolve hRequest hResolve

theorem Allows.find? {path source : String}
    (hAllows : work.Allows hist (.shareExecute l' path source)) (hServes : l.Serves work.loader)
    (hFrom : hist.From S) : ∃ basePath, work.job = .resolve basePath ∧
      l.find? S basePath = some (path, source) := by
  obtain ⟨rfl, basePath, hJob, hFound⟩ := hAllows
  have hFind := hFrom.find? hFound
  refine ⟨basePath, hJob, ?_⟩
  unfold Loader.find? Loader.textAt? at hFind ⊢
  rwa [hServes.1, hServes.2] at hFind

end Work

end Bundleless
