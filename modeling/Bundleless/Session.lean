import Bundleless.World.Schedule
import Bundleless.World.Site

/-! # Sessions

    A loader at work on a page, one command after the other. Each command
    runs to its result beside whatever is under way, and then everything that
    it left behind runs to its end before the next command.
-/

namespace Bundleless

/-! ## Commands -/

/-- What is described for diagnosis. -/
inductive Part where
  | registry
  | require
  | telemetry
deriving DecidableEq, Repr, Inhabited

/-- A command to the loader. -/
inductive Command where
  | register (key : String) (value : Json)
  | registerAlias (existing key : String)
  | get (key : String)
  | contains (key : String)
  | registry (sort : Bool)
  | require (name : String)
  | classify (name : String)
  | requireAsync (name : String) (dir : Option String)
  | preload (source : String) (dir : Option String)
  | preloadDynamic (source : String)
  | load (specifier dir : String)
  | parallel (calls : List (String × Option String))
  | abandon (name : String) (dir : Option String) (ms : Nat)
  | canonical (specifier dir : String)
  | cached (path : String)
  | pending
  | fetchSource (basePath : String)
  | loadTools
  | loadModules
  | loadDynamic (name : String)
  | loadWithRule (r : Rule) (name : String)
  | candidates (d : Descriptor)
  | ruleCandidates (r : Rule) (icon : String)
  | resolve (d : Descriptor)
  | resolveIcon (r : Rule) (name icon : String)
  | probe (url : String) (options : Option ProbeOptions)
  | isReachable (url : String)
  | importMap
  | script (url : String)
  | importExports (url : String)
  | global (path : String)
  | setGlobal (name : String) (value : Json)
  | setVerbose (on : Bool)
  | describe (part : Part)
  | options
  | base (raw : String)
  | entryDir
deriving DecidableEq, Repr

/-- What a command comes to. -/
inductive Result where
  | done
  | nothing
  | failed (e : Failure)
  | module (m : Instance)
  | modules (ms : List (Except Failure Instance))
  | flag (b : Bool)
  | count (n : Nat)
  | text (s : String)
  | texts (xs : List String)
  | value (v : Json)
  | registry (keys : List String) (size : Nat) (empty : Bool)
  | route (r : Load.Route)
  | source (path text : String)
  | probed (r : ProbeResult)
  | importMap (m : ImportMap)
  | options (o : ProbeOptions)
  | entryDir (dir : String) (rules : Nat)
  /-- The caller gave up while so many loads were under way. -/
  | abandoned (pending : Nat)
  /-- There is no result, and there never will be one. -/
  | hang

namespace Result

/-- What a program comes to that can fail. -/
def ofExcept {α : Type} (f : α → Result) : Except Failure α → Result
  | .ok a => f a
  | .error e => failed e

/-- Something that may not be there. -/
def ofOption {α : Type} (f : α → Result) : Option α → Result
  | some a => f a
  | none => nothing

end Result

/-! ## Sessions -/

/-- A loader at work. -/
structure Session where
  host : Host
  loader : Loader
  config : Config
  machine : Machine

/-- What a command came to, the time until then, and what happened. -/
structure Report where
  result : Result
  ms : Nat
  happenings : List Happening

namespace Session

/-- The world of the session. -/
def world (s : Session) : World := s.machine.world

/-- The store of the session. -/
def store (s : Session) : Store := s.world.store

/-- The description of a part. -/
def describe (s : Session) : Part → String
  | .registry => s.store.registry.describe
  | .require =>
    "Require \x7b registry: " ++ s.store.registry.describe ++ ", entry_dir: "
      ++ Text.quoted s.loader.entryDir ++ ", rules: " ++ toString s.loader.rules.length ++ " \x7d"
  | .telemetry => s.world.telemetry.describe

/-- What can be said without doing anything. -/
def inspect? (s : Session) : Command → Option Result
  | .get key => some (.ofOption .module (s.store.registry.get? key))
  | .contains key => some (.flag (s.store.registry.contains key))
  | .registry sort =>
    let r := s.store.registry
    some (.registry (if sort then Text.sorted r.keys else r.keys) r.size r.isEmpty)
  | .canonical specifier dir =>
    some (.ofOption .text (s.store.aliases.get? (LocalPath.key specifier dir)))
  | .cached path => some (.ofOption .module (s.store.cache.get? path))
  | .pending => some (.count s.store.pending)
  | .candidates d => some (.texts (s.loader.providers.candidates d))
  | .ruleCandidates r icon => some (.texts (s.loader.providers.ruleCandidates r icon))
  | .global path => some (.ofOption .value (Globals.lookup s.store.globals path))
  | .describe part => some (.text (s.describe part))
  | .options => some (.options s.loader.probe)
  | .base raw => some (.text (s.loader.providers.baseOf raw))
  | .entryDir => some (.entryDir s.loader.entryDir s.loader.rules.length)
  | _ => none

/-- Register a value. -/
def registerValue (key : String) (value : Json) : Load Instance := do
  let m ← Load.store (.create (.ofValue value))
  Load.store (.register key m)
  return m

/-- Register under a key what is registered under another one. -/
def registerAlias (existing key : String) : Load Bool := do
  match ← Load.store (.registered existing) with
  | some m =>
    Load.store (.register key m)
    return true
  | none => return false

/-- Load several modules that are asked for together. -/
def loadTogether (l : Loader) (calls : List (String × Option String)) :
    Load (List (Except Failure Instance)) := do
  let ts ← Load.spawnAll l (calls.map fun (name, dir) => .call name dir)
  let rs ← Load.op (.allDone ts)
  return rs.map fun r => r.map (·.module)

/-- What a program comes to, as a result. -/
def answer {α : Type} (f : α → Result) (p : Attempt α) : Load Result := do
  return .ofExcept f (← p.run)

/-- The program of a command. -/
def program (s : Session) (c : Command) : Load Result :=
  let l := s.loader
  match c with
  | .register key value => do return .module (← registerValue key value)
  | .registerAlias existing key => do return .flag (← registerAlias existing key)
  | .require name => answer .module (Load.require name)
  | .classify name => do return .route (← Load.route l name)
  | .requireAsync name dir | .abandon name dir _ => answer .module (Load.requireAsync l name dir)
  | .preload source dir => answer (fun _ => .done) (Load.preload l source dir)
  | .preloadDynamic source => do
    Load.preloadDynamic l source
    return .done
  | .load specifier dir => answer .module (Load.loadLocal l specifier dir)
  | .parallel calls => do return .modules (← loadTogether l calls)
  | .fetchSource basePath => answer (fun (p, t) => .source p t) (Load.fetchSource l basePath)
  | .loadTools => answer (fun _ => .done) (Load.loadTools l s.config.tools)
  | .loadModules => answer (fun _ => .done) (Load.loadLibraries l s.config.modules)
  | .loadDynamic name => answer .module (Load.loadUnder l name s.config.dynamicModules)
  | .loadWithRule r name => answer .module (Load.loadWithRule l name r)
  | .resolve d => answer .text (Load.resolve l d)
  | .resolveIcon r name icon => answer .text (Load.resolveIcon l r name icon)
  | .probe url options => do return .probed (← Load.probe (options.getD l.probe) url)
  | .isReachable url => do return .flag (← Load.probe l.probe url).reachable
  | .importMap => answer .importMap (Load.importMap l {} s.config.modules)
  | .script url => answer (fun _ => .done) (Load.runScript url)
  | .importExports url => answer .value (Load.importExports url)
  | .setGlobal name value => do
    Load.store (.setGlobal name value)
    return .done
  | .setVerbose on => do
    Load.op (.setVerbose on)
    return .flag on
  | _ => return .nothing

/-- When the caller of a command gives up. -/
def limit? : Command → Option Nat
  | .abandon _ _ ms => some ms
  | _ => none

/-- What has happened since the trace was so long. -/
def since (length : Nat) (w : World) : List Happening :=
  (w.trace.take (w.trace.length - length)).reverse

/-- Run a command to its result, and what it left behind to its end. -/
def perform (s : Session) (c : Command) : Report × Session :=
  match s.inspect? c with
  | some r => (⟨r, 0, []⟩, s)
  | none =>
    let ran := s.machine.run s.host (s.program c) (limit? c)
    let result :=
      match ran.result, limit? c with
      | some r, _ => r
      | none, some _ => .abandoned ran.machine.world.store.pending
      | none, none => .hang
    let m := ran.machine.settle s.host Machine.patience
    (⟨result, ran.ms, since s.world.trace.length m.world⟩, { s with machine := m })

/-- A session in which nothing has happened. -/
def init (site : Site) (loader : Loader) (config : Config) (network : Network)
    (globals : Globals) (verbose : Bool) : Session where
  host := site.host
  loader := loader
  config := config
  machine := {
    world := { store := { globals := globals }, telemetry := { verbose := verbose } }
    network := network }

end Session

end Bundleless
