import Bundleless.Url.Host

/-! # URLs

    A URL taken apart, and its written form. The path of a URL is either a
    list of segments, each with a slash before it, or opaque: a text that
    nothing can be resolved against.
-/

namespace Bundleless.Url

/-! ## Schemes -/

/-- The kinds of schemes, which differ in their rules. -/
inductive Kind where
  /-- Always with a host. -/
  | special
  /-- Paths of files. -/
  | file
  /-- All others. -/
  | plain
deriving DecidableEq, Repr, Inhabited

/-- The schemes with a port of their own, and the port. -/
def defaultPort? : List Char → Option Nat
  | ['h', 't', 't', 'p'] | ['w', 's'] => some 80
  | ['h', 't', 't', 'p', 's'] | ['w', 's', 's'] => some 443
  | ['f', 't', 'p'] => some 21
  | _ => none

/-- The kind of a scheme. -/
def Kind.of (scheme : List Char) : Kind :=
  if scheme = ['f', 'i', 'l', 'e'] then .file
  else if (defaultPort? scheme).isSome then .special
  else .plain

/-- The kinds in which a backslash separates like a slash. -/
def Kind.isSpecial : Kind → Bool
  | .special | .file => true
  | .plain => false

end Url

/-! ## The record -/

/-- What stands between the two slashes and the path. -/
structure Url.Authority where
  /-- The name and the password, as written. -/
  userinfo : List Char := []
  host : Option Url.Host := none
  /-- The port, unless it is the scheme's own. -/
  port : Option Nat := none
deriving DecidableEq, Repr, Inhabited

/-- A path. -/
inductive Url.Path where
  | segments (parts : List (List Char))
  | opaque_ (text : List Char)
deriving DecidableEq, Repr, Inhabited

/-- A URL. -/
structure Url where
  scheme : List Char
  authority : Option Url.Authority
  path : Url.Path
  query : Option (List Char) := none
  fragment : Option (List Char) := none
deriving DecidableEq, Repr, Inhabited

namespace Url

/-! ## Written form -/

/-- The path as written. -/
def Path.chars : Path → List Char
  | .segments parts => parts.flatMap ('/' :: ·)
  | .opaque_ text => text

/-- The authority with the slashes before it. -/
def Authority.chars (a : Authority) : List Char :=
  ['/', '/']
    ++ (if a.userinfo.isEmpty then [] else a.userinfo ++ ['@'])
    ++ (a.host.map Host.chars).getD []
    ++ (match a.port with
      | some p => ':' :: Decimal.digitsOf p
      | none => [])

/-- The URL without its fragment. A path that begins with two slashes is kept apart from the
    scheme by a dot, so that it is not read as a host. -/
def resourceChars (u : Url) : List Char :=
  let path := u.path.chars
  u.scheme ++ [':']
    ++ (match u.authority with
      | some a => a.chars ++ path
      | none => if Chars.startsWith ['/', '/'] path then ['/', '.'] ++ path else path)
    ++ (match u.query with
      | some q => '?' :: q
      | none => [])

/-- The written form. -/
def chars (u : Url) : List Char :=
  u.resourceChars
    ++ (match u.fragment with
      | some f => '#' :: f
      | none => [])

/-- The written form. -/
def href (u : Url) : String := String.ofList u.chars

/-- The path as written. -/
def pathText (u : Url) : String := String.ofList u.path.chars

/-- The host as written, if there is one. -/
def hostText? (u : Url) : Option String :=
  u.authority.bind fun a => a.host.map fun h => String.ofList h.chars

/-- The kind of the scheme. -/
def kind (u : Url) : Kind := .of u.scheme

/-- Nothing can be resolved against it. -/
def isOpaque (u : Url) : Bool :=
  match u.path with
  | .opaque_ _ => true
  | .segments _ => false

/-! ## Query -/

/-- A plus sign stands for a blank. -/
def plusToBlank (cs : List Char) : List Char := cs.map fun c => if c = '+' then ' ' else c

/-- A name or a value of a query. -/
def formText (cs : List Char) : String :=
  String.ofList (textOfBytes (percentDecode (plusToBlank cs)))

/-- The pairs of names and values in a query. -/
def queryPairs (u : Url) : List (String × String) :=
  let pieces := (Chars.splitAt (· == '&') (u.query.getD [])).filter (!·.isEmpty)
  pieces.map fun piece =>
    match Chars.cutFirst? (· == '=') piece with
    | some (name, value) => (formText name, formText value)
    | none => (formText piece, "")

end Url

end Bundleless
