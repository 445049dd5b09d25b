import Bundleless.Load.Local

/-! # Worlds

    A world is what the tasks of a page act on: the store, the tasks
    themselves, the log, and a trace of everything that could be seen from
    outside. `Op.perform` says what one operation does to a world. An
    operation that waits is performed as soon as what it waits for is there;
    replies from the network and the passing of time come from outside.
-/

namespace Bundleless

/-! ## The page -/

/-- What the page does with what it is handed: scripts, modules, styles and the first paint. -/
structure Host where
  /-- Run a script; it may change the globals, also where it fails. -/
  inject : (url : String) → Globals → Except Failure Unit × Globals
  /-- Import a module; its code may change the globals too. -/
  importModule : (url : String) → Globals → Except Failure Json × Globals
  compile : (path source : String) → Except Failure CompiledModule
  /-- Run a module. It can require whatever is registered. -/
  execute : CompiledModule → Registry → Except Failure Json
  compileStyle : String → Except Failure String
  render : RenderConfig → Registry → Instance → Except Failure Unit

/-- Something that could be seen from outside. -/
inductive Happening where
  | requested (method : Method) (url : String)
  | injected (url : String)
  | imported (url : String)
  /-- A source was compiled. -/
  | compiled (path : String)
  /-- A module was handed to be executed. -/
  | executed (path : String)
  | logged (e : Event)
  | styled (css : String)
  /-- The application was painted. -/
  | rendered (rootId : String) (app : Instance)
  /-- A failure was shown. -/
  | shown (rootId message : String)
deriving DecidableEq, Repr

/-! ## Tasks -/

/-- A piece of work and what is left of its program. -/
structure Task where
  work : Work
  program : Load Outcome

/-- What a task has come to, once it is done. -/
def Task.outcome? (t : Task) : Option Outcome :=
  match t.program with
  | .done r => some r
  | .ask _ _ => none

/-! ## Waiting for several tasks -/

namespace Join

/-- How many tasks are watched all at once. Of more than these, each is looked at only when those
    before it have succeeded. -/
def watched : Nat := 30

/-- The first failure among the tasks that are done, or the success of all. -/
def eager (outcomes : List (Option Outcome)) : Option (Except Failure Unit) :=
  match outcomes.findSome? fun o => o.bind fun r => match r with
    | .error e => some e
    | .ok _ => none with
  | some e => some (.error e)
  | none => if outcomes.all (·.isSome) then some (.ok ()) else none

/-- The outcomes one after the other, up to the first failure. -/
def ordered : List (Option Outcome) → Option (Except Failure Unit)
  | [] => some (.ok ())
  | none :: _ => none
  | some (.error e) :: _ => some (.error e)
  | some (.ok _) :: rest => ordered rest

/-- The failure of one task, or the success of all. -/
def all (outcomes : List (Option Outcome)) : Option (Except Failure Unit) :=
  if outcomes.length ≤ watched then eager outcomes else ordered outcomes

end Join

/-! ## Worlds -/

/-- The state of a page. -/
structure World where
  store : Store := {}
  /-- The tasks; the number of a task is its place. -/
  tasks : List Task := []
  /-- What has happened, the latest first. -/
  trace : List Happening := []
  telemetry : Telemetry := {}

namespace World

/-- Add to the trace. -/
def note (w : World) (happening : Happening) : World :=
  { w with trace := happening :: w.trace }

/-- Log an event, if it is admitted. -/
def log (w : World) (event : String) (detail : Json) (level : Level) : World :=
  match w.telemetry.event? event detail level with
  | some e => w.note (.logged e)
  | none => w

/-- Start a task. -/
def start (w : World) (work : Work) : TaskId × World :=
  (w.tasks.length, { w with tasks := w.tasks ++ [⟨work, work.program⟩] })

/-- What a task has come to, once it is done. -/
def outcome? (w : World) (t : TaskId) : Option Outcome := w.tasks[t]?.bind Task.outcome?

/-- The module that a task has loaded, or its failure, once it is done. -/
def loaded? (w : World) (t : TaskId) : Option (Except Failure Loaded) :=
  match w.outcome? t with
  | some (.error e) => some (.error e)
  | some (.ok (some l)) => some (.ok l)
  -- A tool leaves no module that could be waited for.
  | some (.ok none) | none => none

/-- Change the store. -/
def withStore (w : World) (s : Store) : World := { w with store := s }

/-- Change the globals. -/
def withGlobals (w : World) (g : Globals) : World :=
  w.withStore { w.store with globals := g }

end World

/-! ## Operations -/

/-- What an operation on the page does. -/
def HostOp.perform (h : Host) (w : World) : (o : HostOp) → o.Reply × World
  | .inject url =>
    let (r, g) := h.inject url w.store.globals
    (r, (w.note (.injected url)).withGlobals g)
  | .importModule url =>
    let (r, g) := h.importModule url w.store.globals
    (r, (w.note (.imported url)).withGlobals g)
  | .compile path source =>
    match h.compile path source with
    | .ok m => (.ok m, w.note (.compiled path))
    | .error e => (.error e, w)
  | .execute m => (h.execute m w.store.registry, w.note (.executed m.path))
  | .compileStyle source => (h.compileStyle source, w)
  | .injectCss css => ((), w.note (.styled css))
  | .render config app =>
    match h.render config w.store.registry app with
    | .ok () => (.ok (), w.note (.rendered config.rootId app))
    | .error e => (.error e, w)
  | .showError rootId message => ((), w.note (.shown rootId message))

/-- What an operation does, if it need not wait for anything. -/
def Op.perform (h : Host) (w : World) : (o : Op) → Option (o.Reply × World)
  | .store o =>
    let (r, s) := o.apply w.store
    some (r, w.withStore s)
  | .host o => some (o.perform h w)
  | .send method url => some ((), w.note (.requested method url))
  -- Both are answered from outside.
  | .reply .. | .sleep _ => none
  | .log event detail level => some ((), w.log event detail level)
  | .setVerbose on => some ((), { w with telemetry := { w.telemetry with verbose := on } })
  | .spawn work => some (w.start work)
  | .shareResolve loader basePath =>
    match w.store.resolving.get? basePath with
    | some t => some (t, w)
    | none =>
      let (t, w) := w.start ⟨loader, .resolve basePath⟩
      some (t, w.withStore { w.store with resolving := w.store.resolving.insert basePath t })
  | .shareExecute loader path source =>
    match w.store.executing.get? path with
    | some t => some (.inr t, w)
    | none =>
      -- The cache is written before an entry goes: where neither is there, nobody has executed it.
      match w.store.cache.get? path with
      | some m => some (.inl m, w)
      | none =>
        let (t, w) := w.start ⟨loader, .execute path source⟩
        some (.inr t, w.withStore { w.store with executing := w.store.executing.insert path t })
  | .await t => (w.loaded? t).map fun r => (r, w)
  | .allOk ts => (Join.all (ts.map w.outcome?)).map fun r => (r, w)
  | .allDone ts => (ts.mapM w.loaded?).map fun rs => (rs, w)

end Bundleless
