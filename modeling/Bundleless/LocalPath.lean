import Bundleless.Distinct
import Bundleless.Page

/-! # Paths of local modules

    A local module is named by a specifier seen from a directory, and is
    found under the paths that this may mean. Paths are seen from the root of
    the site, without slashes at their ends. A directory with a slash before
    it is seen from the root of the site too, one without from the page.
-/

namespace Bundleless.LocalPath

/-- The specifier names a local module. -/
def isLocal (specifier : String) : Bool :=
  Text.startsWith "." specifier || Text.startsWith "/" specifier

/-- A directory without slashes at its ends. -/
def trimDir (dir : String) : String := Text.trimSlashes dir

/-- What a specifier seen from a directory is remembered under. -/
def key (specifier dir : String) : String := trimDir dir ++ "|" ++ specifier

/-- The reference that leads from the page to a directory. -/
def dirReference (dir : String) : String :=
  let name := trimDir dir
  if Text.startsWith "/" dir then if name = "" then "/" else "/" ++ name ++ "/"
  else if name = "" then "./" else name ++ "/"

/-- The path that a specifier means, seen from a directory, extension or not: it is resolved as a
    reference against the directory. -/
def resolve (specifier dir : String) (page : Page) : Except Failure String := do
  let base ← page.join (dirReference dir)
  match base.join specifier with
  | .ok u => return trimDir u.pathText
  | .error e => throw (.invalidUrl e)

/-- The directory of a path. -/
def dirOf (path : String) : String :=
  match Chars.cutLast? (· == '/') path.toList with
  | some (dir, _) => String.ofList dir
  | none => ""

/-- The directory of a path as the one its specifiers are seen from. -/
def baseDirOf (path : String) : String := "/" ++ dirOf path

/-- The path ends in one of the extensions. -/
def hasExtension (extensions : List String) (path : String) : Bool :=
  extensions.any fun e => Text.endsWith e path

/-- The paths under which a module may be: the path as it stands and, if it has no known extension,
    with each extension, and as a directory with an index of each extension. -/
def candidates (extensions : List String) (path : String) : List String :=
  let path := Text.dropEndSlashes path
  let guesses :=
    if hasExtension extensions path then []
    else extensions.map (path ++ ·) ++ extensions.map (path ++ "/index" ++ ·)
  Distinct.firsts ((path :: guesses).filter (· != ""))

end Bundleless.LocalPath
