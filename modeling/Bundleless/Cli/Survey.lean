import Bundleless.Cli.Style
import Bundleless.Load.Remote

/-! # Surveys

    What becomes of every dependency of a configuration: of the tools, of
    the library modules, and of names that are asked for under the rules.
    Each of them is resolved, or only its candidates are listed; a failure
    is one finding among the others and ends nothing.
-/

namespace Bundleless.Cli

/-! ## Findings -/

/-- What became of one dependency. -/
inductive Finding where
  | resolved (name url : String)
  | failed (name : String) (e : Failure)
  | noRule (name : String)
  /-- The URL that is given for the dependency. -/
  | verbatim (name url : String)
  /-- The URLs that would be tried. -/
  | candidates (name : String) (urls : List String)
deriving DecidableEq, Repr, Inhabited

namespace Finding

/-- The dependency could not be resolved. -/
def isFailure : Finding → Bool
  | failed .. | noRule _ => true
  | resolved .. | verbatim .. | candidates .. => false

/-- The finding as it is printed. -/
def lines : Finding → List String
  | resolved name url => ["  " ++ Style.green.paint "✓" ++ " " ++ name ++ " -> "
      ++ Style.cyan.paint url]
  | failed name e => ["  " ++ Style.red.paint "✗" ++ " " ++ name ++ ": " ++ e.message]
  | noRule name => ["  " ++ Style.red.paint "✗" ++ " " ++ name ++ ": no matching rule"]
  | verbatim name url => [
      "  " ++ Style.cyan.paint name,
      "    " ++ Style.dim.paint url ++ " " ++ Style.dim.paint "(verbatim)"]
  | candidates name urls =>
    ("  " ++ Style.cyan.paint name) :: urls.map fun url => "    " ++ Style.dim.paint url

end Finding

/-! ## Sections -/

/-- The findings on one group of dependencies. -/
structure Section where
  title : String
  findings : List Finding
deriving DecidableEq, Repr, Inhabited

namespace Section

/-- The section as it is printed. A group without members is passed over. -/
def lines (s : Section) : List String :=
  if s.findings.isEmpty then []
  else Style.yellow.paint (s.title ++ ":") :: s.findings.flatMap Finding.lines

end Section

/-- The findings on all dependencies. -/
structure Survey where
  sections : List Section
deriving DecidableEq, Repr, Inhabited

namespace Survey

/-- The survey as it is printed. -/
def lines (s : Survey) : List String := s.sections.flatMap Section.lines

/-- All findings. -/
def findings (s : Survey) : List Finding := s.sections.flatMap (·.findings)

/-- How many dependencies could not be resolved, counted in the integers of 32 bits. -/
def failures (s : Survey) : Int32 :=
  s.findings.foldl (fun count f => if f.isFailure then count + 1 else count) 0

/-! ## Making a survey -/

/-- List the candidates of a dependency. -/
def list (l : Loader) (d : Descriptor) : Finding :=
  match d.verbatimUrl? with
  | some url => .verbatim d.name url
  | none => .candidates d.name (l.providers.candidates d)

/-- The finding of an attempt to resolve. -/
def found (name : String) (p : Attempt String) : Load Finding := do
  match ← p.run with
  | .ok url => return .resolved name url
  | .error e => return .failed name e

/-- What becomes of a dependency. -/
def ofDescriptor (l : Loader) (listing : Bool) (d : Descriptor) : Load Finding :=
  if listing then return list l d else found d.name (Load.resolve l d)

/-- What becomes of a name, under the first rule that covers it. -/
def ofName (l : Loader) (listing : Bool) (name : String) : Load Finding :=
  match Rule.find? l.rules name with
  | none => return .noRule name
  | some r =>
    let icon := r.icon name
    if listing then return .candidates name (l.providers.ruleCandidates r icon)
    else found name (Load.resolveIcon l r name icon)

/-- Survey a configuration and the names, one dependency after the other. -/
def make (l : Loader) (listing : Bool) (c : Config) (names : List String) : Load Survey := do
  let tools ← c.tools.mapM (ofDescriptor l listing)
  let modules ← c.modules.mapM (ofDescriptor l listing)
  let dynamic ← names.mapM (ofName l listing)
  return ⟨[⟨"tools", tools⟩, ⟨"modules", modules⟩, ⟨"dynamic modules", dynamic⟩]⟩

end Survey

end Bundleless.Cli
