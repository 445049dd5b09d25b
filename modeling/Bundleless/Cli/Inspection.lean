import Bundleless.Cli.Arguments
import Bundleless.Cli.Folder
import Bundleless.Cli.Survey
import Bundleless.Config.Reader
import Bundleless.World.Schedule
import Bundleless.World.Site

/-! # Inspections

    What an invocation does, and what it says: a survey of a configuration,
    an import map, or the outcome of a probe.
-/

namespace Bundleless.Cli

/-! ## Complaints -/

/-- Why an inquiry has failed. -/
inductive Complaint where
  /-- The page is no URL. -/
  | page (href : String) (cause : Failure)
  | unreadable (path : String) (cause : FileFault)
  | unwritable (path : String) (cause : FileFault)
  /-- The loader has failed. -/
  | loader (e : Failure)
  /-- So many dependencies could not be resolved. -/
  | unresolved (count : Int32)
  | unreachable (url : String)
deriving DecidableEq, Repr, Inhabited

namespace Complaint

/-- What has failed. -/
def message : Complaint → String
  | page href _ => "invalid page URL: " ++ href
  | unreadable path _ => "failed to read " ++ path
  | unwritable path _ => "failed to write " ++ path
  | loader e => e.message
  | unresolved count => toString count.toInt ++ " dependency(ies) could not be resolved"
  | unreachable url => url ++ " is not reachable"

/-- Why it has failed, where that is not said already. -/
def cause? : Complaint → Option String
  | page _ cause => some cause.message
  | unreadable _ cause | unwritable _ cause => some cause.message
  | loader _ | unresolved _ | unreachable _ => none

/-- The complaint in one line. -/
def line (c : Complaint) : String :=
  match c.cause? with
  | some cause => c.message ++ ": " ++ cause
  | none => c.message

/-- The complaint as it is printed. -/
def report (c : Complaint) : String :=
  "Error: " ++ c.message
    ++ (match c.cause? with
      | some cause => "\n\nCaused by:\n    " ++ cause
      | none => "")

end Complaint

/-! ## Outcomes -/

/-- What an inquiry says in the end. -/
structure Answer where
  lines : List String := []
  complaint : Option Complaint := none
deriving DecidableEq, Repr, Inhabited

/-- What an inquiry comes to. -/
inductive Outcome where
  | answer (a : Answer)
  /-- A file is to be written; the answer is given when that is done. -/
  | write (path text : String) (count : Nat)
deriving DecidableEq, Repr, Inhabited

/-- The answer after an import map of so many specifiers was to be written. -/
def Answer.ofWrite (path : String) (count : Nat) : Except FileFault Unit → Answer
  | .ok () =>
    { lines := [Style.bold.paint (Style.green.paint "Wrote") ++ " " ++ toString count
        ++ " specifier(s) to " ++ Style.cyan.paint path] }
  | .error fault => { complaint := some (.unwritable path fault) }

/-- An answer that is only a complaint. -/
def Outcome.ofComplaint (c : Complaint) : Outcome := .answer { complaint := some c }

/-! ## The inquiries -/

/-- The place from which an inquiry is made. -/
structure Bench where
  page : Page
  settings : Settings
  verbose : Bool
deriving DecidableEq, Repr, Inhabited

namespace Bench

/-- The bench of an invocation, under settings that it overrides. -/
def ofInvocation (i : Invocation) (s : Settings) : Except Complaint Bench :=
  let s := i.override s
  match Page.read i.page with
  | .ok p => .ok ⟨{ p with mode := s.proxyMode }, s, i.verbose⟩
  | .error e => .error (.page i.page e)

/-- The log of the bench. -/
def telemetry (b : Bench) : Telemetry := { verbose := b.verbose, href := some b.page.href }

/-- The world before anything has happened. -/
def world (b : Bench) : World := { telemetry := b.telemetry }

/-- The configuration is fetched, and not read from a file. -/
def isRemote (source : String) : Bool :=
  Text.startsWith "http://" source || Text.startsWith "https://" source

/-- The configuration. `file` is what reading it as a file would yield. -/
def config (source : String) (file : Except FileFault String) :
    ExceptT Complaint Load Config := do
  let text ←
    if isRemote source then ExceptT.adapt Complaint.loader (Load.fetchText source)
    else ExceptT.adapt (Complaint.unreadable source) (ExceptT.mk (pure file))
  ExceptT.adapt Complaint.loader (Attempt.ofExcept (Config.read text))

/-- The loader of the bench under a configuration. -/
def loader (b : Bench) (c : Config) : Loader := .ofConfig b.page b.settings c

/-- The answer that a survey is. -/
def Survey.answer (s : Survey) : Answer :=
  { lines := s.lines
    complaint := if 0 < s.failures then some (.unresolved s.failures) else none }

/-- The answer that the result of a probe is. -/
def probeAnswer (url : String) (r : ProbeResult) : Answer :=
  let status := (r.status.map toString).getD "no response"
  if r.reachable then
    { lines := [Style.bold.paint (Style.green.paint "reachable") ++ " " ++ url ++ " (" ++ status
        ++ ")"] }
  else
    { lines := [Style.bold.paint (Style.red.paint "unreachable") ++ " " ++ url ++ " ("
        ++ Style.dim.paint status ++ ")"]
      complaint := some (.unreachable url) }

/-- Carry out an inquiry. `file` is what reading its configuration as a file would yield. -/
def inquire (b : Bench) (file : Except FileFault String) :
    Inquiry → ExceptT Complaint Load Outcome
  | .resolve source listing names => do
    let c ← config source file
    let s ← ExceptT.lift (Survey.make (b.loader c) listing c names)
    return .answer (Survey.answer s)
  | .importMap source out => do
    let c ← config source file
    let m ← ExceptT.adapt Complaint.loader (Load.importMap (b.loader c) {} c.modules)
    match out with
    -- A file ends with a line feed; what is printed gets its own.
    | some path => return .write path (m.text ++ "\n") m.size
    | none => return .answer { lines := [m.text] }
  | .probe url => do
    return .answer (probeAnswer url (← ExceptT.lift (Load.probe (.ofSettings b.settings) url)))

/-- The URL, or the failure, of every tool and then of every library module. -/
def resolveAll (b : Bench) (c : Config) : Load (List (Except Failure String)) :=
  (c.tools ++ c.modules).mapM fun d => (Load.resolve (b.loader c) d).run

/-! ## Carrying out -/

/-- Run a program from the bench over a network, as far as it can go. -/
def carry? {α : Type} (b : Bench) (network : Network) (p : Load α) : Option α :=
  (({ world := b.world, network := network } : Machine).run ({} : Site).host p none).result

end Bench

end Bundleless.Cli
