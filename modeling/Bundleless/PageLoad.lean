import Bundleless.Load.Startup
import Bundleless.World.Schedule
import Bundleless.World.Site

/-! # Page loads

    A page that is brought up, once or several times. What is fetched once
    stays; what one attempt left under way runs to its end before the next.
-/

namespace Bundleless

/-- What is done with the page. -/
inductive PageRun where
  /-- Read the configuration. -/
  | config
  /-- Bring the page up, and answer its failure. -/
  | run
  /-- Bring the page up, and show its failure. -/
  | bootstrap
deriving DecidableEq, Repr, Inhabited

/-- What that comes to. -/
inductive PageResult where
  | config (c : Config)
  | booted (b : Booted) (r : Registry)
  | nothing
  | failed (e : Failure)
  /-- There is no result, and there never will be one. -/
  | hang
deriving DecidableEq, Repr

/-- A page that is brought up. -/
structure PageLoad where
  host : Host
  startup : Startup
  machine : Machine

/-- What came of it, and what happened meanwhile. -/
structure PageReport where
  result : PageResult
  /-- The log is verbose now. -/
  verbose : Bool
  happenings : List Happening

namespace PageLoad

/-- Carry out a program, and then what it left behind. What it came to is read from the world at
    that moment. -/
def carry {α : Type} (p : PageLoad) (program : Load α) (f : α → World → PageResult) :
    PageReport × PageLoad :=
  let ran := p.machine.run p.host program none
  let result :=
    match ran.result with
    | some a => f a ran.machine.world
    | none => .hang
  let m := ran.machine.settle p.host Machine.patience
  let earlier := p.machine.world.trace.length
  let happenings := (m.world.trace.take (m.world.trace.length - earlier)).reverse
  (⟨result, m.world.telemetry.verbose, happenings⟩, { p with machine := m })

/-- Do one thing with the page. -/
def perform (p : PageLoad) : PageRun → PageReport × PageLoad
  | .config =>
    p.carry p.startup.loadConfig.run fun r _ =>
      match r with
      | .ok c => .config c
      | .error e => .failed e
  | .run =>
    p.carry p.startup.run.run fun r w =>
      match r with
      | .ok b => .booted b w.store.registry
      | .error e => .failed e
  | .bootstrap =>
    p.carry p.startup.bootstrap fun r w =>
      match r with
      | some b => .booted b w.store.registry
      | none => .nothing

/-- A page on which nothing has happened. -/
def init (site : Site) (startup : Startup) (network : Network) (globals : Globals) : PageLoad where
  host := site.host
  startup := startup
  machine := {
    world := {
      store := { globals := globals }
      telemetry := { href := some startup.page.href } }
    network := network }

/-- A page on a network that sends nothing. Its events go to an endpoint, which has to be a
    URL. -/
def offline (startup : Startup) : Except Failure PageLoad := do
  let _ ← startup.page.join startup.settings.clientLogEndpoint
  return init {} startup .refusing []

end PageLoad

end Bundleless
