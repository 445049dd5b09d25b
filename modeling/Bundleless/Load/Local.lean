import Bundleless.LocalPath
import Bundleless.Load.Remote
import Bundleless.Source

/-! # Local modules

    A local module is loaded in two stages. The first finds out what a path
    means: it fetches the candidates until one answers. The second loads the
    dependencies of the source, compiles and executes it. Each stage is one
    task for all who ask for the same thing; the path that was found, not the
    specifier, decides whether a module is the same.
-/

namespace Bundleless.Load

/-! ## Access by name -/

/-- How a specifier is satisfied. -/
inductive Route where
  /-- It is there. -/
  | registered (m : Instance)
  /-- By a local module. -/
  | localModule
  /-- By a rule. -/
  | rule (r : Rule)
  | unknown
deriving DecidableEq, Repr

/-- Decide how a specifier is satisfied. A local one always goes by its directory, whatever is
    registered under its text. -/
def route (l : Loader) (name : String) : Load Route := do
  -- One text means another file in each directory, so the registry is not asked.
  if l.hasLocal && LocalPath.isLocal name then return .localModule
  match ← store (.registered name) with
  | some m => return .registered m
  | none =>
    match if l.hasDynamic then Rule.find? l.rules name else none with
    | some r => return .rule r
    | none => return .unknown

/-- The module under a name, which has to be there already. -/
def require (name : String) : Attempt Instance := do
  match ← store (.registered name) with
  | some m => return m
  | none => throw (.notLoaded name)

/-! ## Loading by specifier -/

/-- The module at a path that was remembered, if it is there. -/
def remembered (path : Option String) : Load (Option (String × Instance)) := do
  match path with
  | none => return none
  | some path =>
    match ← store (.cached path) with
    | some m => return some (path, m)
    | none => return none

/-- Remember the path of a module that was loaded, and register the module under its specifier. -/
def land (key specifier : String) (x : Loaded) : Attempt Loaded := do
  store (.setAlias key x.key)
  store (.register specifier x.module)
  return x

/-- Join the first stage for a path, or start it, and wait for it. -/
def joinResolve (l : Loader) (basePath : String) : Attempt Loaded := do
  let t ← op (.shareResolve l basePath)
  ExceptT.mk (op (.await t))

/-- Find the local module that a specifier means, seen from a directory, and register it under the
    specifier. What is known already is taken from the tables; else the first stage is joined. -/
def findLocal (l : Loader) (specifier dir : String) : Attempt Loaded := do
  let key := LocalPath.key specifier dir
  let path ← store (.pathOf key)
  match ← remembered path with
  | some (path, m) =>
    -- The alias stands; but under the text of the specifier another module may stand by now.
    store (.register specifier m)
    return ⟨path, m⟩
  | none =>
    let basePath ← Attempt.ofExcept (LocalPath.resolve specifier dir l.page)
    let path ← store (.resolved basePath)
    match ← remembered path with
    | some (path, m) => land key specifier ⟨path, m⟩
    | none =>
      let x ← joinResolve l basePath
      land key specifier x

/-- Load the local module that a specifier means, seen from a directory. -/
def loadLocal (l : Loader) (specifier dir : String) : Attempt Instance := do
  return (← findLocal l specifier dir).module

/-- Load the module under a name if it is not there. A local specifier is seen from the directory,
    or from that of the entry. -/
def requireLoaded (l : Loader) (name : String) (dir : Option String) : Attempt Loaded := do
  match ← route l name with
  | .registered m => return ⟨name, m⟩
  | .localModule => findLocal l name (dir.getD l.entryDir)
  | .rule r => return ⟨name, ← loadWithRule l name r⟩
  | .unknown => throw (.notRegistered name)

/-- Load the module under a name if it is not there, and answer it. -/
def requireAsync (l : Loader) (name : String) (dir : Option String) : Attempt Instance := do
  return (← requireLoaded l name dir).module

/-! ## Loading ahead -/

/-- Load the dependencies of a source, all at once. -/
def preload (l : Loader) (source : String) (dir : Option String) : Attempt Unit :=
  match Source.specifiers source with
  | [] => return
  | specs => allSucceed l (specs.map fun spec => .member spec dir)

/-- Note the dependencies that were not loaded. -/
def noteFailed : List (String × Except Failure Loaded) → Load Unit
  | [] => return
  | (spec, .error e) :: rest => do
    warn "dynamic-module:preload-failed" [("name", .string spec), ("error", .string e.message)]
    noteFailed rest
  | (_, .ok _) :: rest => noteFailed rest

/-- Load those dependencies of a source that a rule covers, as far as they can be loaded. -/
def preloadDynamic (l : Loader) (source : String) : Load Unit :=
  match Source.dynamicSpecifiers source l.rules with
  | [] => return
  | specs => do
    let ts ← spawnAll l (specs.map fun spec => .call spec none)
    let results ← op (.allDone ts)
    noteFailed (specs.zip results)

/-! ## The two stages -/

/-- The first of the candidates that can be fetched, and its text. Those that cannot are passed
    over. -/
def fetchFirst (l : Loader) (basePath : String) (all : List String) :
    List String → Attempt (String × String)
  | [] => do
    warn "local-module:failed"
      [("basePath", .string basePath), ("candidates", .ofStrings all)]
    throw (.localNotFound basePath all)
  | path :: rest =>
    match l.page.join ("/" ++ path) with
    -- A path that cannot be asked for counts as one where nothing is.
    | .error _ => fetchFirst l basePath all rest
    | .ok url => do
      match ← Attempt.outcome (fetchText url.href) with
      | .ok source => return (path, source)
      | .error _ => fetchFirst l basePath all rest

/-- The path that is found for a local module, and its source. -/
def fetchSource (l : Loader) (basePath : String) : Attempt (String × String) :=
  let all := LocalPath.candidates l.extensions basePath
  fetchFirst l basePath all all

/-- The first stage: find the source, then have it executed. -/
def findAndExecute (l : Loader) (basePath : String) : Attempt Loaded := do
  let (path, source) ← fetchSource l basePath
  store (.setResolved basePath path)
  match ← op (.shareExecute l path source) with
  | .inl m => return ⟨path, m⟩
  | .inr t => ExceptT.mk (op (.await t))

/-- Load the dependencies of a source, seen from a directory, then compile and execute it: its
    exports. -/
def runSource (l : Loader) (path source dir : String) : Attempt Json := do
  preload l source (some dir)
  let compiled ← ExceptT.mk (host (.compile path source))
  ExceptT.mk (host (.execute compiled))

/-- The second stage: run the source, and keep the module. -/
def executeSource (l : Loader) (path source : String) : Attempt Loaded := do
  let exports ← runSource l path source (LocalPath.baseDirOf path)
  let m ← store (.create (.ofValue exports))
  -- The entry of the path is given up after this: who comes in between finds one of the two.
  store (.setCached path m)
  store (.register path m)
  return ⟨path, m⟩

/-! ## The entry -/

/-- Fetch the entry, load what the rules cover of its dependencies as far as that goes, and run
    it. -/
def runEntry (l : Loader) (entry dir : String) : Attempt Instance := do
  let url ← Attempt.ofExcept (l.page.join entry)
  let source ← fetchText url.href
  -- What fails here is only noted; what is really missing fails when the source is run.
  preloadDynamic l source
  let exports ← runSource l entry source dir
  info "tsx:compiled" [("entryFile", .string entry), ("entryDir", .string dir)]
  store (.create (.ofValue exports))

/-! ## Tasks -/

/-- Carry out a program, and then an operation on the store, whatever the program came to. -/
def thenEnd {α : Type} (p : Attempt α) (last : StoreOp) : Load (Except Failure α) := do
  let r ← p.run
  let _ ← store last
  return r

end Load

/-- The program of a piece of work. -/
def Work.program (w : Work) : Load Outcome :=
  match w.job with
  | .resolve basePath => do
    let r ← Load.thenEnd (Load.findAndExecute w.loader basePath) (.endResolve basePath)
    return r.map some
  | .execute path source => do
    let r ← Load.thenEnd (Load.executeSource w.loader path source) (.endExecute path)
    return r.map some
  | .member specifier dir => do
    match ← (Load.requireLoaded w.loader specifier dir).run with
    | .ok x => return .ok (some x)
    | .error e => return .error (.preload specifier e)
  | .call name dir => do
    let r ← (Load.requireLoaded w.loader name dir).run
    return r.map some
  | .tool d => do
    let r ← (Load.loadTool w.loader d).run
    return r.map fun _ => none
  | .load specifier dir => do
    let r ← (Load.findLocal w.loader specifier dir).run
    return r.map some
  | .preload source dir => do
    let r ← (Load.preload w.loader source dir).run
    return r.map fun _ => none
  | .enter entry dir => do
    let r ← (Load.runEntry w.loader entry dir).run
    return r.map fun m => some ⟨entry, m⟩

end Bundleless
