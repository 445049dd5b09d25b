import Bundleless.Json.Printer
import Bundleless.Text.Quoted

/-! # Telemetry

    The log of client events. Warnings and errors are always emitted, what
    is below them only while the log is verbose. An event goes to a sink: it
    is written as a log line, and with a beacon also posted, which never
    disturbs the loading.
-/

namespace Bundleless

/-! ## Events -/

/-- The severity of an event, in rising order. -/
inductive Level where
  | debug
  | info
  | warn
  | error
deriving DecidableEq, Repr, Inhabited

namespace Level

/-- The name of the level. -/
def name : Level → String
  | .debug => "debug"
  | .info => "info"
  | .warn => "warn"
  | .error => "error"

/-- The level of a name. -/
def ofName? : String → Option Level
  | "debug" => some .debug
  | "info" => some .info
  | "warn" => some .warn
  | "error" => some .error
  | _ => none

/-- The mark of the level in a log line. -/
def mark : Level → String
  | .debug => "DEBUG"
  | .info => "INFO"
  | .warn => "WARN"
  | .error => "ERROR"

/-- Warnings and errors. -/
def isGrave : Level → Bool
  | .warn | .error => true
  | .debug | .info => false

end Level

/-- An event of the client log. -/
structure Event where
  name : String
  detail : Json
  level : Level
  /-- The page, if it is known. -/
  href : Option String := none
deriving DecidableEq, Repr, Inhabited

/-- The event as a record. -/
def Event.toJson (e : Event) : Json :=
  .ofFields ([("event", .string e.name), ("detail", e.detail), ("level", .string e.level.name)]
    ++ (e.href.map fun h => ("href", .string h)).toList)

/-! ## The gate -/

/-- The state of the log. -/
structure Telemetry where
  /-- Events below warnings are emitted too. -/
  verbose : Bool := false
  /-- The page that every event names. -/
  href : Option String := none
deriving DecidableEq, Repr, Inhabited

namespace Telemetry

/-- Events of this level are emitted. -/
def admits (t : Telemetry) (level : Level) : Bool := level.isGrave || t.verbose

/-- The event that is emitted, if one is. -/
def event? (t : Telemetry) (name : String) (detail : Json) (level : Level) : Option Event :=
  if t.admits level then some ⟨name, detail, level, t.href⟩ else none

/-- A description for diagnosis. -/
def describe (t : Telemetry) : String :=
  let href :=
    match t.href with
    | some h => "Some(" ++ Text.quoted h ++ ")"
    | none => "None"
  "Telemetry \x7b enabled: " ++ (if t.verbose then "true" else "false") ++ ", href: " ++ href
    ++ " \x7d"

end Telemetry

/-! ## Sinks -/

/-- Where events go. -/
inductive Sink where
  /-- Into the log. -/
  | log
  /-- Into the log, and to an endpoint of the page that cannot be reached. -/
  | beacon
deriving DecidableEq, Repr, Inhabited

/-- A line of the log. -/
structure LogLine where
  level : Level
  message : String
  event : Option Event := none
deriving DecidableEq, Repr, Inhabited

namespace LogLine

/-- The line as a record; the detail of its event is written on one line. -/
def toJson (l : LogLine) : Json :=
  let event :=
    match l.event with
    | some e => [("event", .string e.name), ("detail", .string e.detail.compact)]
    | none => []
  .ofFields ([("level", .string l.level.mark), ("message", .string l.message)] ++ event)

end LogLine

/-- The lines that an event leaves in the log. Posting needs a running scheduler; where there is
    one, the failed delivery is noted. -/
def Sink.lines (sink : Sink) (scheduler : Bool) (e : Event) : List LogLine :=
  let line : LogLine := ⟨e.level, "client event", some e⟩
  match sink with
  | .log => [line]
  | .beacon =>
    if scheduler then [line, ⟨.debug, "client log delivery failed", none⟩] else [line]

end Bundleless
