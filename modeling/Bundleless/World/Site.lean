import Bundleless.Json.Document
import Bundleless.World.Basic

/-! # Scripted pages

    A page whose scripts, modules, compiler and renderer are simple enough to
    foresee: which globals a script publishes and what a module exports is
    given by tables, and the source of a module says in plain words what
    becomes of it.
-/

namespace Bundleless

/-- The scripts and modules of a scripted page. -/
structure Site where
  /-- The globals that a script publishes. -/
  scripts : Table Fields := []
  /-- The exports of a module. -/
  modules : Table Json := []
deriving DecidableEq, Repr, Inhabited

namespace Site

/-- Run a script: set the globals that it publishes. -/
def inject (s : Site) (url : String) (g : Globals) : Except Failure Unit × Globals :=
  match s.scripts.get? url with
  | some published => (.ok (), published.foldl (fun g (k, v) => Fields.insert k v g) g)
  | none => (.error (.other ("no script at " ++ url)), g)

/-- Import a module. -/
def importModule (s : Site) (url : String) (g : Globals) : Except Failure Json × Globals :=
  match s.modules.get? url with
  | some exports => (.ok exports, g)
  | none => (.error (.other ("no module at " ++ url)), g)

/-- Compile a source, unless it says `syntax error`. -/
def compile (path source : String) : Except Failure CompiledModule :=
  if Text.contains "syntax error" source then .error (.compile path "unexpected token")
  else .ok ⟨path, source⟩

/-- What a line of a module says about its outcome. -/
def verdict? (path line : String) : Option (Except Failure Json) :=
  match Text.stripPrefix? "//throw " line with
  | some message => some (.error (.execute path message))
  | none =>
    (Text.stripPrefix? "//exports " line).map fun text =>
      match Json.read? text with
      | some exports => .ok exports
      | none => .error (.execute path "bad exports")

/-- Run a module: require what its source names, then do what its first telling line says. Without
    such a line the module exports its path and the specifiers it names. -/
def execute (m : CompiledModule) (r : Registry) : Except Failure Json :=
  let specs := Source.specifiers m.code
  match specs.find? (!r.contains ·) with
  | some missing => .error (.execute m.path (Failure.notLoaded missing).message)
  | none =>
    match (Text.lines m.code).findSome? (verdict? m.path) with
    | some outcome => outcome
    | none => .ok (.ofFields [("path", .string m.path), ("deps", .ofStrings specs)])

/-- Compile styles, unless they say `style error`. -/
def compileStyle (source : String) : Except Failure String :=
  if Text.contains "style error" source then .error (.other "bad style")
  else .ok ("compiled(" ++ source ++ ")")

/-- Paint the application, if the module that paints is there. -/
def render (c : RenderConfig) (r : Registry) (_app : Instance) : Except Failure Unit :=
  match c.domModule with
  | some name =>
    if r.contains name then .ok () else .error (.render ("DOM render module missing: " ++ name))
  | none => .ok ()

/-- The page. -/
def host (s : Site) : Host := ⟨s.inject, s.importModule, compile, execute, compileStyle, render⟩

end Site

end Bundleless
