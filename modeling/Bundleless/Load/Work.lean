import Bundleless.Candidate
import Bundleless.Module.Registry
import Bundleless.Probe.Policy

/-! # Work

    What the loader is set up with, and the pieces of work that it does
    beside what it was asked for. A piece of work runs as a task of its own,
    to its end, whoever waits for it.
-/

namespace Bundleless

/-- What a loader is set up with. -/
structure Loader where
  page : Page
  providers : Providers
  probe : ProbeOptions := {}
  /-- The extensions of local modules. -/
  extensions : List String := ({} : Settings).extensions
  rules : List Rule := []
  /-- The directory from which specifiers are seen where nothing else is said. -/
  entryDir : String := ""
  /-- Local modules can be loaded. -/
  hasLocal : Bool := true
  /-- Modules under the rules can be loaded. -/
  hasDynamic : Bool := true
deriving DecidableEq, Repr, Inhabited

namespace Loader

/-- The loader of a page under a configuration. -/
def ofConfig (page : Page) (settings : Settings) (config : Config) : Loader where
  page := page
  providers := (Providers.ofPage page).configure config
  probe := .ofSettings settings
  extensions := settings.extensions
  rules := config.dynamicModules
  entryDir := config.entryDir

end Loader

/-- A piece of work. -/
inductive Job where
  /-- Find the local module that a path means, and have it executed. -/
  | resolve (basePath : String)
  /-- Execute the local module at a path, its dependencies first. -/
  | execute (path source : String)
  /-- Load one dependency of a source. -/
  | member (specifier : String) (dir : Option String)
  /-- Load one of several modules that are asked for together. -/
  | call (name : String) (dir : Option String)
  /-- Load a tool. -/
  | tool (d : Descriptor)
  /-- Load the local module that a specifier means, seen from a directory. -/
  | load (specifier dir : String)
  /-- Load the dependencies of a source. -/
  | preload (source : String) (dir : Option String)
  /-- Run the entry, what it imports first. -/
  | enter (entry dir : String)
deriving DecidableEq, Repr, Inhabited

/-- The job can be asked for from outside. The others are parts of a load. -/
def Job.isAsked : Job → Bool
  | .resolve _ | .execute .. | .member .. => false
  | .call .. | .tool _ | .load .. | .preload .. | .enter .. => true

/-- A piece of work of a loader. -/
structure Work where
  loader : Loader
  job : Job
deriving DecidableEq, Repr, Inhabited

/-- A task is known by its number. -/
abbrev TaskId := Nat

/-- A module that was loaded, and the key it is found under: its path if it is a local one, else
    its name. -/
structure Loaded where
  key : String
  module : Instance
deriving DecidableEq, Repr, Inhabited

/-- What a piece of work comes to. A tool leaves no module. -/
abbrev Outcome := Except Failure (Option Loaded)

/-- A module ready to be executed. -/
structure CompiledModule where
  /-- The path it was loaded from. -/
  path : String
  code : String
deriving DecidableEq, Repr, Inhabited

end Bundleless
