import Bundleless.Config.Writer
import Bundleless.ImportMap
import Bundleless.Load.Probe

/-! # Remote dependencies

    Tools, library modules and modules under rules: the first candidate that
    can be reached is the one that is loaded, as a script that publishes a
    global or as a module that is imported.
-/

namespace Bundleless.Load

/-! ## Resolving -/

/-- The first of the candidates that can be reached. They are probed one after the other. -/
def firstReachable (o : ProbeOptions) (name : String) (all : List String) :
    List String → Attempt String
  | [] => do
    info "resolve:fail" [("name", .string name), ("tried", .ofStrings all)]
    throw (.unresolved name all)
  | url :: rest => do
    let result ← probe o url
    if result.reachable then
      info "resolve:success" [("name", .string name), ("url", .string url)]
      return url
    else firstReachable o name all rest

/-- The first reachable candidate. -/
def resolveAmong (o : ProbeOptions) (name : String) (candidates : List String) : Attempt String :=
  firstReachable o name candidates candidates

/-- What a dependency without a name is called. -/
def unnamed : String := "<unnamed>"

/-- The URL of a dependency. One that is given is used as it stands. -/
def resolve (l : Loader) (d : Descriptor) : Attempt String :=
  match d.verbatimUrl? with
  | some url => return url
  | none =>
    resolveAmong l.probe (if d.name = "" then unnamed else d.name) (l.providers.candidates d)

/-- The URL of an icon under a rule. -/
def resolveIcon (l : Loader) (r : Rule) (name icon : String) : Attempt String :=
  resolveAmong l.probe name (l.providers.ruleCandidates r icon)

/-- The import map of dependencies, in their order; the first that cannot be resolved ends it. -/
def importMap (l : Loader) (m : ImportMap) : List Descriptor → Attempt ImportMap
  | [] => return m
  | d :: ds => do
    let url ← resolve l d
    importMap l (m.insert d url) ds

/-! ## Scripts -/

/-- Run a script. Whether it published anything is for the caller to see. -/
def runScript (url : String) : Attempt Unit := do
  match ← Attempt.outcome (ExceptT.mk (host (.inject url))) with
  | .ok () => info "loadScript:success" [("url", .string url)]
  | .error e =>
    info "loadScript:error" [("url", .string url), ("error", .string e.message)]
    throw (.scriptFailed url)

/-- Import a module: its exports. -/
def importExports (url : String) : Attempt Json := do
  match ← Attempt.outcome (ExceptT.mk (host (.importModule url))) with
  | .ok exports =>
    info "loadScript:success" [("url", .string url), ("format", ModuleFormat.esm.toJson)]
    return exports
  | .error e =>
    info "loadScript:error"
      [("url", .string url), ("format", ModuleFormat.esm.toJson), ("error", .string e.message)]
    throw (.scriptFailed url)

/-- The global that a script has published. -/
def published (url global : String) : Attempt Json := do
  match ← store (.lookup global) with
  | some value => return value
  | none => throw (.globalMissing url global)

/-! ## Tools -/

/-- The global that a dependency is expected to publish. -/
def globalOf (d : Descriptor) : String := d.global.getD d.name

/-- Load a tool. It has to publish its global. -/
def loadTool (l : Loader) (d : Descriptor) : Attempt Unit := do
  let url ← resolve l d
  runScript url
  let _ ← published url (globalOf d)
  info "tool:loaded"
    [("name", .string d.name), ("url", .string url), ("global", .string (globalOf d))]

/-- Start a task for each piece of work. -/
def spawnAll (l : Loader) : List Job → Load (List TaskId)
  | [] => return []
  | job :: jobs => do
    let t ← op (.spawn ⟨l, job⟩)
    return t :: (← spawnAll l jobs)

/-- Start a task for each piece of work, and wait until all have succeeded or one has failed. -/
def allSucceed (l : Loader) (jobs : List Job) : Attempt Unit :=
  ExceptT.mk do
    let ts ← spawnAll l jobs
    op (.allOk ts)

/-- Load tools, all at once. -/
def loadTools (l : Loader) (ds : List Descriptor) : Attempt Unit :=
  allSucceed l (ds.map .tool)

/-! ## Library modules -/

/-- Publish the default export of an imported module, unless the global holds something else. -/
def publishDefault (global : Option String) (n : Namespace) : Load Unit :=
  match global with
  | none | some "" => return
  | some name => do
    match ← store (.getGlobal name) with
    | some existing =>
      -- A null counts as nothing.
      if existing.isNull ∨ existing = n.default then store (.setGlobal name n.default)
      else return
    | none => store (.setGlobal name n.default)

/-- Load the exports of a library module. -/
def loadExports (d : Descriptor) (url : String) : Attempt Namespace := do
  match d.format with
  | .esm =>
    let n := Namespace.ofValue (← importExports url)
    publishDefault d.global n
    return n
  | .global =>
    runScript url
    return .ofValue (← published url (globalOf d))

/-- Load a library module. -/
def loadLibrary (l : Loader) (d : Descriptor) : Attempt Instance := do
  let url ← resolve l d
  let n ← loadExports d url
  info "module:loaded"
    [("name", .string d.name), ("url", .string url), ("global", .ofOption d.global),
      ("format", d.format.toJson)]
  store (.create n)

/-- Load library modules one after the other, and register each under its name. -/
def loadLibraries (l : Loader) : List Descriptor → Attempt Unit
  | [] => return
  | d :: ds => do
    let m ← loadLibrary l d
    store (.register d.name m)
    loadLibraries l ds

/-! ## Modules under rules -/

/-- Load the exports of an icon; with them the global that it published. -/
def loadIcon (r : Rule) (icon url : String) : Attempt (Namespace × Option String) := do
  match r.format with
  | .esm => return (.ofValue (← importExports url), none)
  | .global =>
    runScript url
    let global := r.globalFor icon
    return (.ofValue (← published url global), some global)

/-- Load a module under a rule, and register it under its icon and under its name. -/
def loadWithRule (l : Loader) (name : String) (r : Rule) : Attempt Instance := do
  if !r.covers name then throw (.noRule name)
  let icon := r.icon name
  let url ← resolveIcon l r name icon
  let (n, global) ← loadIcon r icon url
  let m ← store (.create n)
  -- One module under both names, not two.
  store (.register icon m)
  store (.register name m)
  info "dynamic-module:loaded"
    [("name", .string icon), ("url", .string url), ("global", .ofOption global),
      ("format", r.format.toJson)]
  return m

/-- Load a module under the first of the rules that covers it. -/
def loadUnder (l : Loader) (name : String) (rules : List Rule) : Attempt Instance :=
  match Rule.find? rules name with
  | some r => loadWithRule l name r
  | none => throw (.noRule name)

end Bundleless.Load
