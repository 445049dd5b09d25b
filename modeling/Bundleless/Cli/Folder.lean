import Bundleless.Table
import Bundleless.Text.Basic

/-! # Folders

    The files that a command can read and write, by their paths as seen from
    the place where it runs. A path is walked piece by piece; there is nothing
    above that place.
-/

namespace Bundleless.Cli

/-- Why a file could not be read or written: the number that the system gives to the cause, and
    its words for it. -/
structure FileFault where
  code : Nat
  reason : String
deriving DecidableEq, Repr, Inhabited

namespace FileFault

/-- The wording of a fault. -/
def message (f : FileFault) : String := f.reason ++ " (os error " ++ toString f.code ++ ")"

/-- There is nothing at the path. -/
def missing : FileFault := ⟨2, "No such file or directory"⟩

/-- A piece of the path lies below a file. -/
def belowFile : FileFault := ⟨20, "Not a directory"⟩

/-- The path leads to a directory. -/
def isDirectory : FileFault := ⟨21, "Is a directory"⟩

end FileFault

/-- Files by their paths. -/
structure Folder where
  files : Table String := []
deriving DecidableEq, Repr, Inhabited

namespace Folder

/-- The pieces of a path. -/
abbrev Trail := List String

/-- The path of a file. -/
def pathOf (t : Trail) : String := Text.join "/" t

/-- There is a file. -/
def isFile (f : Folder) (t : Trail) : Bool := (f.files.get? (pathOf t)).isSome

/-- There is a directory: the place itself, or one in which a file lies. -/
def isDirectory (f : Folder) (t : Trail) : Bool :=
  t.isEmpty || f.files.any fun (path, _) => Text.startsWith (pathOf t ++ "/") path

/-- Go on from a place by one piece of a path. -/
def step (f : Folder) (t : Trail) (piece : String) : Except FileFault Trail :=
  if f.isDirectory t then
    if piece = "" ∨ piece = "." then .ok t
    else if piece = ".." then
      if t.isEmpty then .error .missing else .ok t.dropLast
    else .ok (t ++ [piece])
  else if f.isFile t then .error .belowFile
  else .error .missing

/-- Where a path leads. -/
def walk (f : Folder) (path : String) : Except FileFault Trail :=
  if path = "" ∨ Text.startsWith "/" path then .error .missing
  else (Text.splitAt '/' path).foldlM f.step []

/-- The text of a file. -/
def read (f : Folder) (path : String) : Except FileFault String := do
  let t ← f.walk path
  if f.isDirectory t then throw .isDirectory
  match f.files.get? (pathOf t) with
  | some text => return text
  | none => throw .missing

/-- Write a file, in place of the one that may be there. -/
def write (f : Folder) (path text : String) : Except FileFault Folder := do
  let t ← f.walk path
  if f.isDirectory t then throw .isDirectory
  return ⟨f.files.insert (pathOf t) text⟩

end Folder

end Bundleless.Cli
