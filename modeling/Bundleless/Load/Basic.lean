import Bundleless.Load.Request
import Bundleless.Load.Store
import Bundleless.Telemetry

/-! # Loads

    What the loader does is written as a program: a tree whose nodes are
    operations and whose branches are the answers to them. The tree says
    nothing about how its operations are carried out, nor about what happens
    between two of them. Every branch is finite: what repeats is bounded by a
    list or by a count of retries.
-/

namespace Bundleless

/-! ## Operations -/

/-- An operation on the page. -/
inductive HostOp where
  /-- Run a script. -/
  | inject (url : String)
  /-- Import a module. -/
  | importModule (url : String)
  | compile (path source : String)
  | execute (m : CompiledModule)
  | compileStyle (source : String)
  | injectCss (css : String)
  | render (config : RenderConfig) (app : Instance)
  | showError (rootId message : String)
deriving DecidableEq, Repr

/-- What an operation on the page answers. -/
abbrev HostOp.Reply : HostOp → Type
  | inject _ | render .. => Except Failure Unit
  | importModule _ | execute _ => Except Failure Json
  | compile .. => Except Failure CompiledModule
  | compileStyle _ => Except Failure String
  | injectCss _ | showError .. => Unit

/-- An operation of a load. -/
inductive Op where
  | store (o : StoreOp)
  | host (o : HostOp)
  /-- Send a request. -/
  | send (method : Method) (url : String)
  /-- Wait for the reply to the request that was sent last. -/
  | reply (method : Method) (url : String)
  | sleep (ms : Nat)
  | log (event : String) (detail : Json) (level : Level)
  | setVerbose (on : Bool)
  /-- Start a task. -/
  | spawn (w : Work)
  /-- The task that finds out what a path means, started if there is none. -/
  | shareResolve (loader : Loader) (basePath : String)
  /-- The module at a path, or else the task that executes it, started if there is none. -/
  | shareExecute (loader : Loader) (path source : String)
  /-- Wait for the module that a task loads. -/
  | await (t : TaskId)
  /-- Wait until all tasks have succeeded, or one has failed. -/
  | allOk (ts : List TaskId)
  /-- Wait for what every task comes to. -/
  | allDone (ts : List TaskId)
deriving DecidableEq, Repr

/-- What an operation of a load answers. -/
abbrev Op.Reply : Op → Type
  | store o => o.Reply
  | host o => o.Reply
  | reply .. => Bundleless.Reply
  | send .. | sleep _ | log .. | setVerbose _ => Unit
  | spawn _ | shareResolve .. => TaskId
  | shareExecute .. => Instance ⊕ TaskId
  | await _ => Except Failure Loaded
  | allOk _ => Except Failure Unit
  | allDone _ => List (Except Failure Loaded)

/-! ## Programs -/

/-- A program that answers with an `α`. -/
inductive Load (α : Type) where
  | done (a : α)
  | ask (o : Op) (next : o.Reply → Load α)

namespace Load

/-- Go on with `f` where the program is done. -/
protected def bind {α β : Type} : Load α → (α → Load β) → Load β
  | done a, f => f a
  | ask o next, f => ask o fun r => (next r).bind f

instance : Monad Load where
  pure := done
  bind := Load.bind

@[simp] theorem pure_eq {α : Type} (a : α) : (pure a : Load α) = done a := rfl

@[simp] theorem done_bind {α β : Type} (a : α) (f : α → Load β) : (done a >>= f) = f a := rfl

@[simp] theorem ask_bind {α β : Type} (o : Op) (next : o.Reply → Load α) (f : α → Load β) :
    (ask o next >>= f) = ask o fun r => next r >>= f := rfl

theorem bind_done {α : Type} (p : Load α) : (p >>= done) = p := by
  induction p with
  | done a => rfl
  | ask o next ih => simp [ih]

theorem bind_assoc {α β γ : Type} (p : Load α) (f : α → Load β) (g : β → Load γ) :
    (p >>= f >>= g) = p >>= fun a => f a >>= g := by
  induction p with
  | done a => rfl
  | ask o next ih => simp [ih]

instance : LawfulMonad Load :=
  LawfulMonad.mk' Load bind_done (fun _ _ => rfl) bind_assoc

/-- Ask for one operation. -/
def op (o : Op) : Load o.Reply := ask o done

end Load

/-- A program that can fail. -/
abbrev Attempt := ExceptT Failure Load

namespace Load

/-! ## Single operations -/

/-- An operation on the store. -/
def store (o : StoreOp) : Load o.Reply := op (.store o)

/-- An operation on the page. -/
def host (o : HostOp) : Load o.Reply := op (.host o)

/-- Send a request and wait for the reply. -/
def request (method : Method) (url : String) : Attempt Response :=
  ExceptT.mk do
    op (.send method url)
    op (.reply method url)

/-- Note an event that is of interest only in detail. -/
def info (event : String) (fields : List (String × Json)) : Load Unit :=
  op (.log event (.ofFields fields) .info)

/-- Note an event that may be a fault. -/
def warn (event : String) (fields : List (String × Json)) : Load Unit :=
  op (.log event (.ofFields fields) .warn)

/-- Note a fault. -/
def error (event : String) (fields : List (String × Json)) : Load Unit :=
  op (.log event (.ofFields fields) .error)

/-- The text at a URL. -/
def fetchText (url : String) : Attempt String := do
  let r ← request .get url
  if Status.isSuccess r.status then return r.body else throw (.http url r.status)

end Load

namespace Attempt

/-- Fail at once, or go on. -/
def ofExcept {α : Type} (r : Except Failure α) : Attempt α := ExceptT.mk (pure r)

/-- Go on with what a program comes to, also where it fails. -/
def outcome {α : Type} (p : Attempt α) : Attempt (Except Failure α) := ExceptT.lift p.run

end Attempt

end Bundleless
