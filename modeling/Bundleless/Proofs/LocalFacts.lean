import Bundleless.Proofs.Triple

/-! # What tasks know of local modules

    The words in which the tasks of a page agree on local modules: what a
    specifier can mean, what a task works on, and what has happened so far.
    Whatever has happened has happened for good.
-/

namespace Bundleless

/-! ## Section 1: What a specifier can mean -/

namespace Loader

variable (l : Loader)

/-- The other loader works on the same page with the same extensions, and so on the same local
    modules. -/
def Serves (l' : Loader) : Prop := l'.page = l.page ∧ l'.extensions = l.extensions

/-- Such work may be asked for from outside. -/
def Asks (work : Work) : Prop := work.job.isAsked = true ∧ l.Serves work.loader

/-- A base path can be found at the path: this is one of its candidates, and one that can be asked
    for. -/
def Finds (basePath path : String) : Prop :=
  path ∈ LocalPath.candidates l.extensions basePath ∧ ∃ u, l.page.join ("/" ++ path) = .ok u

/-- The specifier, seen from the directory, can be found at the path. -/
def Means (specifier dir path : String) : Prop :=
  ∃ basePath, LocalPath.resolve specifier dir l.page = .ok basePath ∧ l.Finds basePath path

/-- What is remembered under the key can be found at the path. More than one specifier and
    directory may have the key. -/
def Known (key path : String) : Prop :=
  ∃ specifier dir, key = LocalPath.key specifier dir ∧ l.Means specifier dir path

end Loader

/-- The local module that is asked for: a specifier, and the directory it is seen from. Work by name
    asks for one only where the name is a local one and local modules can be loaded. -/
def Work.localRequest? (work : Work) : Option (String × String) :=
  match work.job with
  | .load specifier dir => some (specifier, dir)
  | .member name dir | .call name dir =>
    if work.loader.hasLocal && LocalPath.isLocal name then
      some (name, dir.getD work.loader.entryDir)
    else none
  | _ => none

/-- A name is looked up as a local module only if it is local, from the directory that is given or
    from that of the entry. -/
theorem Work.of_localRequest? {l : Loader} {job : Job} {name s d : String} {dir : Option String}
    (hNamed : job = .member name dir ∨ job = .call name dir)
    (hRequest : (⟨l, job⟩ : Work).localRequest? = some (s, d)) :
    LocalPath.isLocal name = true ∧ s = name ∧ d = dir.getD l.entryDir := by
  have hIs : (if l.hasLocal && LocalPath.isLocal name then some (name, dir.getD l.entryDir)
      else none) = some (s, d) := by
    rcases hNamed with rfl | rfl <;> exact hRequest
  obtain ⟨hLocal, hSame⟩ := Option.ite_none_right_eq_some.mp hIs
  obtain ⟨hName, hDir⟩ := Prod.mk.inj (Option.some.inj hSame)
  exact ⟨(Bool.and_eq_true_iff.mp hLocal).2, hName.symm, hDir.symm⟩

/-! ## Section 2: What has happened -/

namespace World

variable (w : World)

/-- The task finds out what a base path means. -/
def Resolves (t : TaskId) (basePath : String) : Prop :=
  ∃ l, w.workOf? t = some ⟨l, .resolve basePath⟩

/-- The task executes the module at a path. -/
def Executes (t : TaskId) (path : String) : Prop :=
  ∃ l source, w.workOf? t = some ⟨l, .execute path source⟩

end World

namespace Moment

variable (m : Moment)

/-- The module at the path has been compiled and executed, and this is what it exports. -/
def Executed (path : String) (i : Instance) : Prop :=
  ∃ t l source compiled exports, m.workOf? t = some ⟨l, .execute path source⟩ ∧
    .act t (.host (.compile path source)) (.ok compiled) ∈ m.past ∧
    .act t (.host (.execute compiled)) (.ok exports) ∈ m.past ∧
    i.exposed = Namespace.ofValue exports

/-- The task has found the path under the key, or has put it there. -/
def Found (t : TaskId) (key path : String) : Prop :=
  .act t (.store (.pathOf key)) (some path) ∈ m.past ∨
    .act t (.store (.setAlias key path)) () ∈ m.past

/-- The task has loaded the local module that a specifier means, seen from a directory: it has
    found the path, the module is cached there, and it has registered the module under the
    specifier. -/
structure Landed (l : Loader) (t : TaskId) (specifier dir path : String) (i : Instance) : Prop where
  found : m.Found t (LocalPath.key specifier dir) path
  cached : m.Cached path i
  known : l.Known (LocalPath.key specifier dir) path
  registers : .act t (.store (.register specifier i)) () ∈ m.past

/-- The task has satisfied a name, seen from a directory if there is one: the name is registered,
    and what a local one means is loaded. -/
structure Satisfied (l : Loader) (t : TaskId) (loader : Loader) (name : String)
    (dir : Option String) (x : Loaded) : Prop where
  registered : m.Registered name
  landed : loader.hasLocal = true → LocalPath.isLocal name = true →
    m.Landed l t name (dir.getD loader.entryDir) x.key x.module

/-- As a part of its work the task has had a dependency loaded, by a task that is done. -/
def Supplied (l : Loader) (t : TaskId) (loader : Loader) (specifier : String)
    (dir : Option String) : Prop :=
  ∃ k x, .act t (.spawn ⟨loader, .member specifier dir⟩) k ∈ m.past ∧
    m.workOf? k = some ⟨loader, .member specifier dir⟩ ∧
    m.outcome? k = some (.ok (some x)) ∧ m.Satisfied l k loader specifier dir x

/-- What the work of a task has to run: a source from a path, with its specifiers seen from a
    directory. The source of an entry is what was fetched. -/
inductive Runs (t : TaskId) (loader : Loader) : Job → (path source dir : String) → Prop
  | execute (path source : String) :
      Runs t loader (.execute path source) path source (LocalPath.baseDirOf path)
  | enter {entry dir : String} {u : Url} {r : Response} (hJoin : loader.page.join entry = .ok u)
      (hFetch : .act t (.reply .get u.href) (.ok r) ∈ m.past) :
      Runs t loader (.enter entry dir) entry r.body dir

/-- A compiled module is ready to be executed: every specifier of its source has been loaded. -/
def Ready (l : Loader) (work : Work) (t : TaskId) (compiled : CompiledModule) : Prop :=
  ∃ path source dir, m.Runs t work.loader work.job path source dir ∧
    .act t (.host (.compile path source)) (.ok compiled) ∈ m.past ∧
    ∀ s ∈ Source.specifiers source, m.Supplied l t work.loader s (some dir)

variable {m} {m' : Moment}

theorem Later.resolves {t : TaskId} {basePath : String} (hLater : Later m m')
    (hResolves : m.Resolves t basePath) : m'.Resolves t basePath := by
  obtain ⟨l, hWork⟩ := hResolves
  exact ⟨l, hLater.work t _ hWork⟩

theorem Later.executes {t : TaskId} {path : String} (hLater : Later m m')
    (hExecutes : m.Executes t path) : m'.Executes t path := by
  obtain ⟨l, source, hWork⟩ := hExecutes
  exact ⟨l, source, hLater.work t _ hWork⟩

theorem Executed.later {path : String} {i : Instance} (hExecuted : m.Executed path i)
    (hLater : Later m m') : m'.Executed path i := by
  obtain ⟨t, l, source, compiled, exports, hWork, hCompile, hExecute, hExposed⟩ := hExecuted
  exact ⟨t, l, source, compiled, exports, hLater.work t _ hWork, hLater.past _ hCompile,
    hLater.past _ hExecute, hExposed⟩

theorem Found.later {t : TaskId} {key path : String} (hFound : m.Found t key path)
    (hLater : Later m m') : m'.Found t key path :=
  hFound.imp (hLater.past _) (hLater.past _)

theorem Landed.later {l : Loader} {t : TaskId} {specifier dir path : String} {i : Instance}
    (hLanded : m.Landed l t specifier dir path i) (hLater : Later m m') :
    m'.Landed l t specifier dir path i where
  found := hLanded.found.later hLater
  cached := hLater.cached path i hLanded.cached
  known := hLanded.known
  registers := hLater.past _ hLanded.registers

theorem Satisfied.later {l loader : Loader} {t : TaskId} {name : String} {dir : Option String}
    {x : Loaded} (hSatisfied : m.Satisfied l t loader name dir x) (hLater : Later m m') :
    m'.Satisfied l t loader name dir x where
  registered := hLater.registered name hSatisfied.registered
  landed hHas hLocal := (hSatisfied.landed hHas hLocal).later hLater

theorem Supplied.later {l loader : Loader} {t : TaskId} {specifier : String} {dir : Option String}
    (hSupplied : m.Supplied l t loader specifier dir) (hLater : Later m m') :
    m'.Supplied l t loader specifier dir := by
  obtain ⟨k, x, hSpawn, hWork, hOutcome, hSatisfied⟩ := hSupplied
  exact ⟨k, x, hLater.past _ hSpawn, hLater.work k _ hWork, hLater.outcome k _ hOutcome,
    hSatisfied.later hLater⟩

end Moment

end Bundleless
