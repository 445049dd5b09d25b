import Bundleless.Globals
import Bundleless.Load.Work

/-! # The store

    What all tasks of a page share: the registry, the tables of the local
    modules, the globals and the configuration. Every operation on it takes
    place at once. The tables of local modules are

    - `aliases`, from a specifier and its directory to a path,
    - `resolved`, from what a specifier means to the path that was found,
    - `cache`, from a path to its module,
    - `resolving` and `executing`, the tasks that are under way.
-/

namespace Bundleless

/-- The state that all tasks share. -/
structure Store where
  registry : Registry := {}
  aliases : Table String := []
  resolved : Table String := []
  cache : Table Instance := []
  resolving : Table TaskId := []
  executing : Table TaskId := []
  globals : Globals := []
  /-- The identity of the next module. -/
  nextId : Nat := 0
  /-- The configuration, once it has been read. -/
  config : Option Config := none
deriving DecidableEq, Repr, Inhabited

/-- An operation on the store. -/
inductive StoreOp where
  | registered (key : String)
  | register (key : String) (m : Instance)
  /-- Give a namespace its identity. -/
  | create (n : Namespace)
  | pathOf (key : String)
  | setAlias (key path : String)
  | resolved (basePath : String)
  | setResolved (basePath path : String)
  | cached (path : String)
  | setCached (path : String) (m : Instance)
  /-- No task finds out any more what a path means. -/
  | endResolve (basePath : String)
  /-- No task executes a module any more. -/
  | endExecute (path : String)
  | lookup (path : String)
  | getGlobal (name : String)
  | setGlobal (name : String) (value : Json)
  | config
  | setConfig (c : Config)
  /-- Start with an empty registry and no local modules. -/
  | clear
deriving DecidableEq, Repr

namespace StoreOp

/-- What an operation on the store answers. -/
abbrev Reply : StoreOp → Type
  | registered _ | cached _ => Option Instance
  | create _ => Instance
  | pathOf _ | resolved _ => Option String
  | lookup _ | getGlobal _ => Option Json
  | config => Option Config
  | register .. | setAlias .. | setResolved .. | setCached .. | endResolve _ | endExecute _
  | setGlobal .. | setConfig _ | clear => Unit

/-- Carry out an operation. -/
def apply (s : Store) : (o : StoreOp) → o.Reply × Store
  | registered key => (s.registry.get? key, s)
  | register key m => ((), { s with registry := s.registry.insert key m })
  | create n => (⟨s.nextId, n⟩, { s with nextId := s.nextId + 1 })
  | pathOf key => (s.aliases.get? key, s)
  | setAlias key path => ((), { s with aliases := s.aliases.insert key path })
  | resolved basePath => (s.resolved.get? basePath, s)
  | setResolved basePath path => ((), { s with resolved := s.resolved.insert basePath path })
  | cached path => (s.cache.get? path, s)
  | setCached path m => ((), { s with cache := s.cache.insert path m })
  | endResolve basePath => ((), { s with resolving := s.resolving.erase basePath })
  | endExecute path => ((), { s with executing := s.executing.erase path })
  | lookup path => (Globals.lookup s.globals path, s)
  | getGlobal name => (Fields.get? name s.globals, s)
  | setGlobal name value => ((), { s with globals := Fields.insert name value s.globals })
  | config => (s.config, s)
  | setConfig c => ((), { s with config := some c })
  | clear =>
    ((), { s with
      registry := {}, aliases := [], resolved := [], cache := [], resolving := [],
      executing := [] })

end StoreOp

namespace Store

/-- The number of loads of local modules that are under way, in both stages. -/
def pending (s : Store) : Nat := s.resolving.length + s.executing.length

end Store

end Bundleless
