import Bundleless.Provider

/-! # Candidates

    The URLs under which a package may be found, in the order in which they
    are tried: every base in turn, and under each base the layouts in which
    packages are published.
-/

namespace Bundleless

namespace Candidate

/-- The directories of a package in which its files may be. -/
def layouts : List String := ["", "umd/", "dist/"]

/-- A directory and a file, one slash between them; empty parts are left out. -/
def combine (pathPrefix file : Option String) : String :=
  let parts := (([pathPrefix, file].filterMap id).map Text.trimSlashes).filter (· != "")
  Text.join "/" parts

/-- The forms of the path under the root of a package: an explicit path alone, else the combined
    path in every layout, else the root itself. -/
def paths (explicit : Option String) (combined : String) : List String :=
  match (explicit.map Text.dropStartSlashes).filter (· != "") with
  | some path => ["/" ++ path]
  | none => if combined = "" then [""] else layouts.map fun layout => "/" ++ layout ++ combined

/-- The package with its version, as it stands in a URL. -/
def package (name : String) (version : Option String) : String :=
  match version.filter (· != "") with
  | some v => name ++ "@" ++ v
  | none => name

/-- Every path under every base, each once. -/
def under (bases : List String) (package : String) (paths : List String) : List String :=
  Distinct.firsts (bases.flatMap fun base => paths.map fun path => base ++ package ++ path)

/-- A candidate as a URL of the web. What is none is resolved against the page, or kept if it
    cannot be. -/
def absolute (page : Page) (candidate : String) : String :=
  if Base.isWeb candidate then candidate
  else
    match page.join candidate with
    | .ok u => u.href
    | .error _ => candidate

end Candidate

namespace Providers

/-- The candidates under these bases as URLs, each once. -/
def candidatesUnder (p : Providers) (bases : List String) (package : String)
    (paths : List String) : List String :=
  Distinct.firsts ((Candidate.under bases package paths).map (Candidate.absolute p.page))

/-- The candidates of a dependency. -/
def candidates (p : Providers) (d : Descriptor) : List String :=
  p.candidatesUnder (p.basesFor (.ofDescriptor d)) (Candidate.package d.packageName d.version)
    (Candidate.paths d.path (Candidate.combine d.pathPrefix d.file))

/-- The candidates of an icon under a rule. -/
def ruleCandidates (p : Providers) (r : Rule) (icon : String) : List String :=
  p.candidatesUnder (p.ruleBases (.ofRule r)) (Candidate.package r.packageName r.version)
    (Candidate.paths none (Candidate.combine r.pathPrefix (some (r.fileFor icon))))

end Providers

end Bundleless
