import Bundleless.Cli.Program

/-! # The command line

    The program on the files and the environment of the system. Nothing is
    sent over a network.
-/

namespace Bundleless.Cli.System

/-- The fault of a failed access to a file. -/
def faultOf : IO.Error → FileFault
  | .noFileOrDirectory _ code reason => ⟨code.toNat, reason⟩
  | .permissionDenied _ code reason => ⟨code.toNat, reason⟩
  | .inappropriateType _ code reason => ⟨code.toNat, reason⟩
  | .otherError code reason => ⟨code.toNat, reason⟩
  | e => ⟨5, toString e⟩

/-- What an access to a file comes to. -/
def attempt {α : Type} (access : IO α) : IO (Except FileFault α) := do
  match ← access.toBaseIO with
  | .ok a => return .ok a
  | .error e => return .error (faultOf e)

/-- The variables in the system's own listing: entries with a null after each, the name of a
    variable before the first equals sign of its entry and the value after it. -/
def variablesIn (listing : String) : List (String × String) :=
  (Text.splitAt (Char.ofNat 0) listing).filterMap fun entry =>
    (Chars.cutFirst? (· == '=') entry.toList).map fun (name, value) =>
      (String.ofList name, String.ofList value)

/-- The variables of the environment, in the order of the system. Where the system does not list
    them, those with names in capital letters are asked for one by one. -/
def environment : IO (List (String × String)) := do
  match ← attempt (IO.FS.readFile "/proc/self/environ") with
  | .ok listing => return variablesIn listing
  | .error _ =>
    let names := Program.pageVariable :: Settings.variableNames
    let values ← names.mapM fun name => do return (name, ← IO.getEnv name)
    return values.filterMap fun (name, value) => value.map (name, ·)

/-- Carry out a plan. -/
def conduct (p : Plan) : IO Answer := do
  let file ←
    match p.invocation.inquiry.config? with
    | some path => attempt (IO.FS.readFile path)
    | none => pure (.error .missing)
  match p.outcome? .refusing file with
  | none => return {}
  | some (.answer a) => return a
  | some (.write path text count) =>
    return .ofWrite path count (← attempt (IO.FS.writeFile path text))

/-- Leave behind what the end of a run says. -/
def leave (e : Exit) : IO UInt32 := do
  IO.print e.output
  if e.errors != "" then IO.eprintln e.errors
  return UInt32.ofNat e.code

end Bundleless.Cli.System

open Bundleless.Cli Bundleless.Cli.System in
/-- Run the program. -/
def main (args : List String) : IO UInt32 := do
  match Plan.read (← environment) args with
  | .error u => leave (.ofUsage u)
  | .ok p =>
    p.preamble.forM IO.println
    leave (.ofAnswer [] (← conduct p))
