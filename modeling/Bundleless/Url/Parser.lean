import Bundleless.Url.Basic

/-! # Reading URLs

    A text is read as a URL, alone or against a base URL. The parts are taken
    off one after the other: the scheme, the authority, the path, the query
    and the fragment. Segments of one or two dots are resolved on the way.
-/

namespace Bundleless.Url

/-! ## Query and fragment -/

/-- The text before the first character satisfying `p`, and the rest with it. -/
def cutBefore (p : Char → Bool) (cs : List Char) : List Char × List Char :=
  (cs.takeWhile (!p ·), cs.dropWhile (!p ·))

/-- The path ends here. -/
def endsPath (c : Char) : Bool := c == '?' || c == '#'

/-- The query and the fragment at the start of the text. -/
def queryAndFragment (kind : Kind) (cs : List Char) : Option (List Char) × Option (List Char) :=
  let (query, rest) :=
    match cs with
    | '?' :: cs =>
      let (q, rest) := cutBefore (· == '#') cs
      (some (percentEncode (querySet kind.isSpecial) q), rest)
    | _ => (none, cs)
  match rest with
  | '#' :: f => (query, some (percentEncode fragmentSet f))
  | _ => (query, none)

/-! ## Paths -/

/-- A slash, and a backslash in special URLs. -/
def isSlash (kind : Kind) (c : Char) : Bool := c == '/' || (kind.isSpecial && c == '\\')

/-- Either slash. -/
def isAnySlash (c : Char) : Bool := c == '/' || c == '\\'

/-- The segment stands for the directory itself. -/
def isSingleDot (seg : List Char) : Bool :=
  seg = ['.'] ∨ Chars.toLower seg = ['%', '2', 'e']

/-- The segment stands for the directory above. -/
def isDoubleDot (seg : List Char) : Bool :=
  let seg := Chars.toLower seg
  seg = ['.', '.'] ∨ seg = ['%', '2', 'e', '%', '2', 'e'] ∨ seg = ['%', '2', 'e', '.']
    ∨ seg = ['.', '%', '2', 'e']

/-- The name of a drive: a letter and a colon or a bar. -/
def isDrive : List Char → Bool
  | [c, d] => c.isAlpha && (d == ':' || d == '|')
  | _ => false

/-- The name of a drive with its colon. -/
def isPlainDrive (seg : List Char) : Bool := isDrive seg && seg.getLast? == some ':'

/-- Go up from a directory. The root has nothing above it, and a drive is not left. The segments
    stand in reverse order. -/
def goUp : List (List Char) → List (List Char)
  | [] => []
  | seg :: done => if isDrive seg then seg :: done else done

/-- Add segments, as written, to a directory, whose segments stand in reverse order. After the
    last segment there is no slash; if it is one of dots, the path ends with the slash before
    it. -/
def walk (kind : Kind) : (done segs : List (List Char)) → List (List Char)
  | done, [] => done
  | done, seg :: segs =>
    let stop := segs.isEmpty
    -- Dots at the end name a directory, and a directory ends with a slash.
    if isDoubleDot seg then
      walk kind (if stop then [] :: goUp done else goUp done) segs
    else if isSingleDot seg then walk kind (if stop then [] :: done else done) segs
    else
      let seg :=
        match seg with
        | [c, '|'] => if kind = .file ∧ done.isEmpty ∧ c.isAlpha then [c, ':'] else seg
        | _ => seg
      walk kind (seg :: done) segs

/-- The path of a file has no empty segments at its start. -/
def dropEmpty : List (List Char) → List (List Char)
  | [] => []
  | [seg] => [seg]
  | [] :: segs => dropEmpty segs
  | seg :: segs => seg :: segs

/-- The path reached from a directory, whose segments stand in reverse order, by a text without a
    slash at its start. -/
def pathFrom (kind : Kind) (done : List (List Char)) (text : List Char) : Path :=
  let segs := (Chars.splitAt (isSlash kind) text).map (percentEncode pathSet)
  let path := (walk kind done segs).reverse
  .segments (if kind = .file then dropEmpty path else path)

/-- The path after an authority. Only a URL that is not special can have none. -/
def pathAfterHost (kind : Kind) (text : List Char) : Path :=
  match text with
  | [] => if kind.isSpecial then pathFrom kind [] [] else .segments []
  | c :: rest => if isSlash kind c then pathFrom kind [] rest else pathFrom kind [] text

/-! ## The authority -/

/-- The end of the authority. -/
def endsAuthority (kind : Kind) (c : Char) : Bool := endsPath c || isSlash kind c

/-- Read a name and a password. A colon is written only before a password. -/
def userinfoChars (cs : List Char) : List Char :=
  match Chars.cutFirst? (· == ':') cs with
  | none => percentEncode userinfoSet cs
  | some (name, []) => percentEncode userinfoSet name
  | some (name, password) =>
    percentEncode userinfoSet name ++ ':' :: percentEncode userinfoSet password

/-- The end of the host, seen from inside or outside of brackets. -/
def cutHost (kind : Kind) : (inside : Bool) → List Char → List Char × List Char
  | _, [] => ([], [])
  | inside, c :: cs =>
    if (c == ':' && !inside) || c == '/' || endsPath c || (kind.isSpecial && c == '\\') then
      ([], c :: cs)
    else
      let inside := if c = '[' then true else if c = ']' then false else inside
      let (host, rest) := cutHost kind inside cs
      (c :: host, rest)

/-- Read the digits of a port, up to a separator. -/
def readPort (n : Nat) : List Char → Except Fault (Nat × List Char)
  | [] => .ok (n, [])
  | c :: cs =>
    if '0' ≤ c ∧ c ≤ '9' then
      let n := 10 * n + (c.toNat - 48)
      if 65535 < n then .error .invalidPort else readPort n cs
    else if isAnySlash c ∨ endsPath c then .ok (n, c :: cs)
    else .error .invalidPort

/-- Read a port, if there is one, and the rest. A scheme's own port is not kept. -/
def portAndRest (scheme cs : List Char) : Except Fault (Option Nat × List Char) :=
  match cs with
  | ':' :: ds => do
    let (n, rest) ← readPort 0 ds
    let digits := ds.length - rest.length
    -- A colon without digits names no port.
    return (if digits = 0 ∨ defaultPort? scheme = some n then none else some n, rest)
  | _ => .ok (none, cs)

/-- Read the host, if there is one. -/
def readHost (kind : Kind) (cs : List Char) : Except Fault (Option Host) :=
  if kind = .plain then
    if cs.isEmpty then .ok none else (Host.readOpaque cs).map some
  else if cs.isEmpty then .error .emptyHost
  else (Host.read cs).map some

/-- What stands before the last at sign of the authority, and the rest. -/
def cutUserinfo (kind : Kind) (cs : List Char) : Option (List Char) × List Char :=
  let (front, back) := cutBefore (endsAuthority kind) cs
  match Chars.cutLast? (· == '@') front with
  | some (userinfo, host) => (some userinfo, host ++ back)
  | none => (none, cs)

/-- Read an authority and what follows it. -/
def afterSlashes (scheme cs : List Char) : Except Fault Url := do
  let kind := Kind.of scheme
  let (userinfo?, cs) := cutUserinfo kind cs
  let hostless := cs.head?.all (endsAuthority kind)
  -- An at sign alone before a path names no host, even where none is needed.
  if userinfo? = some [] ∧ hostless ∧ !cs.isEmpty then throw .emptyHost
  let userinfo := userinfoChars (userinfo?.getD [])
  let (hostText, rest) := cutHost kind false cs
  let host ← readHost kind hostText
  if host.isNone ∧ rest.head? = some ':' then throw .emptyHost
  let (port, rest) ← portAndRest scheme rest
  if host.isNone ∧ !userinfo.isEmpty then throw .emptyHost
  let (pathText, rest) := cutBefore endsPath rest
  let (query, fragment) := queryAndFragment kind rest
  return ⟨scheme, some ⟨userinfo, host, port⟩, pathAfterHost kind pathText, query, fragment⟩

/-! ## Files -/

/-- The text begins with a drive and ends there or goes on with a slash. -/
def startsWithDrive : List Char → Bool
  | c :: d :: cs =>
    isDrive [c, d] && cs.head?.all fun e => isAnySlash e || endsPath e
  | _ => false

/-- The scheme of files. -/
def fileScheme : List Char := ['f', 'i', 'l', 'e']

/-- A file, from its host, the directory it starts from and the text of its path. -/
def fileUrl (host : Option Host) (done : List (List Char)) (cs : List Char) : Url :=
  let (pathText, rest) := cutBefore endsPath cs
  let (query, fragment) := queryAndFragment .file rest
  ⟨fileScheme, some ⟨[], host, none⟩, pathFrom .file done pathText, query, fragment⟩

/-- Read the host of a file. The own host is none, and so is a drive. -/
def fileHost (cs : List Char) : Except Fault (Option Host × List Char) := do
  let (text, rest) := cutBefore (fun c => isAnySlash c || endsPath c) cs
  -- A drive is the start of the path, and is left there.
  if isDrive text then return (none, cs)
  if text.isEmpty then return (none, rest)
  match ← Host.read text with
  | .domain name =>
    if name = ['l', 'o', 'c', 'a', 'l', 'h', 'o', 's', 't'] then return (none, rest)
    else return (some (.domain name), rest)
  | host => return (some host, rest)

/-- Read a file with a host. Where the path begins with a drive, there is none. -/
def fileWithHost (cs : List Char) : Except Fault Url := do
  let (host, rest) ← fileHost cs
  let path :=
    match rest with
    | c :: tail => if isAnySlash c then tail else rest
    | [] => []
  let u := fileUrl host [] path
  if startsWithDrive path then return { u with authority := some {} } else return u

/-- The segments of a path in reverse order. -/
def Path.reversed : Path → List (List Char)
  | .segments parts => parts.reverse
  | .opaque_ _ => []

/-- The directory of a path, in reverse order: all but its last segment. The name of a drive is
    not left. -/
def Path.directory (kind : Kind) (p : Path) : List (List Char) :=
  match p.reversed with
  | [] => []
  | seg :: done => if kind = .file ∧ isPlainDrive seg then seg :: done else done

/-- The host of a URL. -/
def host? (u : Url) : Option Host := u.authority.bind (·.host)

/-- Read a file against a file, if there is one. -/
def readFile (base : Option Url) (cs : List Char) : Except Fault Url :=
  match cs with
  | c :: d :: rest =>
    if isAnySlash c ∧ isAnySlash d then fileWithHost rest
    else if isAnySlash c then fromRoot (d :: rest)
    else relative
  | [c] => if isAnySlash c then fromRoot [] else relative
  | [] => relative
where
  /-- A path from the root, on the base's drive or host. -/
  fromRoot (cs : List Char) : Except Fault Url :=
    match base with
    | some b =>
      if startsWithDrive cs then .ok (fileUrl none [] cs)
      else
        match b.path with
        | .segments (seg :: _) =>
          if isPlainDrive seg then .ok (fileUrl none [seg] cs) else .ok (fileUrl b.host? [] cs)
        | _ => .ok (fileUrl b.host? [] cs)
    | none => .ok (fileUrl none [] cs)
  /-- A path from the base's directory. -/
  relative : Except Fault Url :=
    match base with
    | none => .ok (fileUrl none [] cs)
    | some b =>
      match cs with
      | [] => .ok { b with fragment := none }
      | '#' :: f => .ok { b with fragment := some (percentEncode fragmentSet f) }
      | '?' :: _ =>
        let (query, fragment) := queryAndFragment .file cs
        .ok { b with query := query, fragment := fragment }
      | _ =>
        if startsWithDrive cs then .ok (fileUrl none [] cs)
        else .ok (fileUrl b.host? (b.path.directory .file) cs)

/-! ## Relative references -/

/-- Read a reference without a scheme against a base that is no file. -/
def relative (base : Url) (cs : List Char) : Except Fault Url :=
  let kind := base.kind
  match cs with
  | [] => .ok { base with fragment := none }
  | '?' :: _ =>
    let (query, fragment) := queryAndFragment kind cs
    .ok { base with query := query, fragment := fragment }
  | '#' :: f => .ok { base with fragment := some (percentEncode fragmentSet f) }
  | c :: rest =>
    if isAnySlash c then
      if rest.head?.any isAnySlash then
        match Chars.stripPrefix? ['/', '/'] cs with
        | some cs => afterSlashes base.scheme cs
        | none => afterSlashes base.scheme (cs.dropWhile isAnySlash)
      else
        let (pathText, rest) := cutBefore endsPath rest
        let (query, fragment) := queryAndFragment kind rest
        .ok { base with path := pathFrom kind [] pathText, query := query, fragment := fragment }
    else
      let (pathText, rest) := cutBefore endsPath cs
      let (query, fragment) := queryAndFragment kind rest
      let path := pathFrom kind (base.path.directory kind) pathText
      .ok { base with path := path, query := query, fragment := fragment }

/-! ## Whole URLs -/

/-- A character of a scheme after its first letter. -/
def isSchemeChar (c : Char) : Bool := c.isAlphanum || c == '+' || c == '-' || c == '.'

/-- The scheme at the start of the text, in small letters, and what follows its colon. -/
def cutScheme? (cs : List Char) : Option (List Char × List Char) :=
  match cs with
  | [] => none
  | c :: _ =>
    if c.isAlpha then
      match Chars.cutFirst? (!isSchemeChar ·) cs with
      | some (scheme, rest) =>
        if (cs.drop scheme.length).head? = some ':' then some (Chars.toLower scheme, rest)
        else none
      | none => none
    else none

/-- Read what follows a scheme that is not special. -/
def plainUrl (scheme cs : List Char) : Except Fault Url :=
  match Chars.stripPrefix? ['/', '/'] cs with
  | some cs => afterSlashes scheme cs
  | none =>
    let (pathText, rest) := cutBefore endsPath cs
    let (query, fragment) := queryAndFragment .plain rest
    let path :=
      match pathText with
      | '/' :: text => pathFrom .plain [] text
      | text => .opaque_ (percentEncode controlSet text)
    .ok ⟨scheme, none, path, query, fragment⟩

/-- Read what follows a scheme. Against a base with the same special scheme, a text with fewer than
    two slashes is a relative reference. -/
def withScheme (base : Option Url) (scheme cs : List Char) : Except Fault Url :=
  match Kind.of scheme with
  | .file => readFile (base.filter fun b => b.scheme == fileScheme) cs
  | .plain => plainUrl scheme cs
  | .special =>
    let slashes := (cs.takeWhile isAnySlash).length
    match base with
    | some b =>
      if slashes < 2 ∧ b.scheme = scheme then relative b cs
      else afterSlashes scheme (cs.dropWhile isAnySlash)
    | none => afterSlashes scheme (cs.dropWhile isAnySlash)

/-- A control character or a blank. -/
def isPadding (c : Char) : Bool := c.toNat ≤ 0x20

/-- A tab or a line end. -/
def isLineBreak (c : Char) : Bool := c == '\t' || c == '\n' || c == '\r'

/-- The text that is read: without padding at its ends, and without tabs and line ends. -/
def significant (cs : List Char) : List Char :=
  (Chars.trimWhile isPadding cs).filter (!isLineBreak ·)

/-- Read a URL, against a base if there is one. -/
def readFrom (base : Option Url) (text : List Char) : Except Fault Url :=
  let cs := significant text
  match cutScheme? cs with
  | some (scheme, rest) => withScheme base scheme rest
  | none =>
    match base with
    | none => .error .noBase
    | some b =>
      match cs with
      | '#' :: f => .ok { b with fragment := some (percentEncode fragmentSet f) }
      | _ =>
        if b.isOpaque then .error .opaqueBase
        else if b.kind = .file then readFile (some b) cs
        else relative b cs

/-- Read a URL that stands alone. -/
def parse (s : String) : Except Fault Url := readFrom none s.toList

/-- Read a reference against this URL. -/
def join (u : Url) (s : String) : Except Fault Url := readFrom (some u) s.toList

end Bundleless.Url
