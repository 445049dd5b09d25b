import Bundleless.Cli.Invocation

/-! # Arguments

    How the words of a command line are read. Options that every command
    knows may stand before the command and after it; what stands after it
    goes before what stands before it. The value of an option stands in the
    same word or in the next one; it is looked at when the next option or
    operand is met, or at the end, so that an unknown word is complained of
    first. After a double dash there are only operands.
-/

namespace Bundleless.Cli

/-! ## Flags -/

/-- The options. -/
inductive Flag where
  | verbose
  | page
  | proxyMode
  | retries
  | backoffMs
  | noGetFallback
  | candidates
  | dynamic
  | out
  | help
  | version
deriving DecidableEq, Repr, Inhabited

namespace Flag

/-- The options, in the order in which they are presented. -/
def all : List Flag :=
  [.candidates, .dynamic, .out, .verbose, .page, .proxyMode, .retries, .backoffMs, .noGetFallback,
    .help, .version]

/-- The long name, after two dashes. -/
def name : Flag → String
  | .verbose => "verbose"
  | .page => "page"
  | .proxyMode => "proxy-mode"
  | .retries => "retries"
  | .backoffMs => "backoff-ms"
  | .noGetFallback => "no-get-fallback"
  | .candidates => "candidates"
  | .dynamic => "dynamic"
  | .out => "out"
  | .help => "help"
  | .version => "version"

/-- The letter after a single dash. -/
def letter? : Flag → Option Char
  | .verbose => some 'v'
  | .out => some 'o'
  | .help => some 'h'
  | .version => some 'V'
  | _ => none

/-- A value belongs to the option. -/
def takesValue : Flag → Bool
  | .page | .proxyMode | .retries | .backoffMs | .dynamic | .out => true
  | .verbose | .noGetFallback | .candidates | .help | .version => false

/-- The option is known before the command, or to the command. -/
def isKnown (verb : Option Verb) : Flag → Bool
  | .candidates | .dynamic => verb == some .resolve
  | .out => verb == some .importMap
  | _ => true

/-- The option of a long name. -/
def ofName? (verb : Option Verb) (name : String) : Option Flag :=
  all.find? fun f => f.isKnown verb && f.name == name

/-- The option of a letter. -/
def ofLetter? (verb : Option Verb) (c : Char) : Option Flag :=
  all.find? fun f => f.isKnown verb && f.letter? == some c

end Flag

/-! ## Usage -/

/-- Why a command line leads to no inquiry: it is not understood, or it asks about the program
    itself. -/
inductive Usage where
  /-- Nothing is said at all. -/
  | nothing
  | noCommand
  | unknownCommand (word : String)
  /-- An option that is not known, or one operand too many. -/
  | unknownArgument (word : String)
  | missingOperand (verb : Verb)
  | missingValue (f : Flag)
  | invalidValue (f : Flag) (value : String)
  /-- A value after an option to which none belongs. -/
  | needlessValue (f : Flag) (value : String)
  | repeated (f : Flag)
  /-- Asked for help, on the whole or on a command. -/
  | help (verb : Option Verb)
  /-- Asked for the version. -/
  | version (verb : Option Verb)
deriving DecidableEq, Repr, Inhabited

/-! ## What was given -/

/-- What the words on one side of the command have said so far. -/
structure Given where
  verbose : Bool := false
  page : Option String := none
  proxyMode : Option String := none
  retries : Option Nat := none
  backoffMs : Option Nat := none
  noGetFallback : Bool := false
  candidates : Bool := false
  dynamic : List String := []
  out : Option String := none
  operand : Option String := none
deriving DecidableEq, Repr, Inhabited

namespace Given

/-- A number of retries. A minus sign may stand before zero. -/
def retriesOf? (value : String) : Option Nat :=
  match value.toList with
  | '-' :: digits => if digits.isEmpty ∨ ¬ digits.all (· == '0') then none else some 0
  | _ => Settings.number? UInt32.size value

/-- Put the value where none is yet. -/
def once {α : Type} (f : Flag) (earlier : Option α) (read : Option α) (value : String) :
    Except Usage (Option α) :=
  match earlier, read with
  | some _, _ => .error (.repeated f)
  | none, some a => .ok (some a)
  | none, none => .error (.invalidValue f value)

/-- Take in an option and its value. -/
def record (g : Given) (f : Flag) (value : String) : Except Usage Given :=
  match f with
  | .page => do return { g with page := ← once f g.page (some value) value }
  | .proxyMode => do return { g with proxyMode := ← once f g.proxyMode (some value) value }
  | .retries => do return { g with retries := ← once f g.retries (retriesOf? value) value }
  | .backoffMs => do
    return { g with backoffMs := ← once f g.backoffMs (Settings.number? UInt64.size value) value }
  | .dynamic => .ok { g with dynamic := g.dynamic ++ [value] }
  | .out =>
    if g.out.isNone ∧ value = "" then .error (.missingValue f)
    else do return { g with out := ← once f g.out (some value) value }
  | _ => .ok g

/-- Take in an option without a value. -/
def mark (g : Given) (verb : Option Verb) (f : Flag) : Except Usage Given :=
  match f with
  | .verbose => if g.verbose then .error (.repeated f) else .ok { g with verbose := true }
  | .noGetFallback =>
    if g.noGetFallback then .error (.repeated f) else .ok { g with noGetFallback := true }
  | .candidates =>
    if g.candidates then .error (.repeated f) else .ok { g with candidates := true }
  | .help => .error (.help verb)
  | .version => .error (.version verb)
  | _ => .ok g

end Given

/-! ## Words -/

/-- How far the words are read. -/
structure Reading where
  verb : Option Verb
  given : Given := {}
  /-- The option met last, and its value once that is met, until both are looked at. -/
  waiting : Option (Flag × Option String) := none
  /-- A double dash has been met. -/
  operandsOnly : Bool := false
deriving DecidableEq, Repr, Inhabited

namespace Reading

/-- Look at the option that waits. -/
def settle (r : Reading) : Except Usage Reading :=
  match r.waiting with
  | none => .ok r
  | some (f, none) => .error (.missingValue f)
  | some (f, some value) => do
    return { r with given := ← r.given.record f value, waiting := none }

/-- An option with its value in the same word. -/
def attach (r : Reading) (f : Flag) (value : String) : Except Usage Reading := do
  let r ← r.settle
  return { r with given := ← r.given.record f value }

/-- An option whose value is the next word. -/
def await (r : Reading) (f : Flag) : Except Usage Reading := do
  return { ← r.settle with waiting := some (f, none) }

/-- An option without a value. -/
def mark (r : Reading) (f : Flag) : Except Usage Reading := do
  let r ← r.settle
  return { r with given := ← r.given.mark r.verb f }

/-- A word of two dashes and a name, with or without an equals sign and a value. -/
def long (r : Reading) (body : List Char) : Except Usage Reading :=
  let (name, value?) :=
    match Chars.cutFirst? (· == '=') body with
    | some (name, value) => (String.ofList name, some (String.ofList value))
    | none => (String.ofList body, none)
  match Flag.ofName? r.verb name with
  | none => .error (.unknownArgument ("--" ++ name))
  | some f =>
    match f.takesValue, value? with
    | true, some value => r.attach f value
    | true, none => r.await f
    | false, some value => .error (.needlessValue f value)
    | false, none => r.mark f

/-- The letters after a single dash. What follows the letter of an option with a value is the
    value, with or without an equals sign before it. -/
def letters (r : Reading) : List Char → Except Usage Reading
  | [] => .ok r
  | c :: cs =>
    match Flag.ofLetter? r.verb c with
    | none => .error (.unknownArgument (String.ofList ['-', c]))
    | some f =>
      if f.takesValue then
        match cs with
        | [] => r.await f
        | '=' :: value => r.attach f (String.ofList value)
        | value => r.attach f (String.ofList value)
      else do letters (← r.mark f) cs

/-- A word that is no option: a value or an operand. -/
def plain (r : Reading) (word : String) : Except Usage Reading :=
  match r.operandsOnly, r.waiting with
  | false, some (f, none) => .ok { r with waiting := some (f, some word) }
  | _, _ =>
    if r.given.operand.isSome then .error (.unknownArgument word)
    else do
      let r ← r.settle
      return { r with given := { r.given with operand := some word } }

/-- A word after the command. -/
def word (r : Reading) (w : String) : Except Usage Reading :=
  if r.operandsOnly then r.plain w
  else
    match w.toList with
    | ['-', '-'] => .ok { r with operandsOnly := true }
    | '-' :: '-' :: body => r.long body
    | ['-'] => r.plain w
    | '-' :: cs => r.letters cs
    | _ => r.plain w

/-- All words after the command. -/
def words (r : Reading) (ws : List String) : Except Usage Reading := do
  (← ws.foldlM word r).settle

end Reading

/-! ## Before the command -/

/-- The word that asks for help in place of a command. -/
def helpWord : String := "help"

/-- What is asked when help is asked for in place of a command. -/
def helpOn : List String → Usage
  | [] => .help none
  | w :: ws =>
    match Verb.ofName? w with
    | some verb =>
      match ws with
      | [] => .help (some verb)
      | extra :: _ => .unknownCommand extra
    | none =>
      if w = helpWord then
        match ws with
        | [] => .help none
        | extra :: _ => .unknownCommand extra
      else .unknownCommand w

/-- What stands before the command, and the command with what stands after it. -/
def beforeCommand (r : Reading) :
    List String → Except Usage (Reading × Option (Verb × List String))
  | [] => .ok (r, none)
  | w :: ws =>
    let isCommand := (Verb.ofName? w).isSome || w == helpWord
    if r.operandsOnly then
      .error (if isCommand then .unknownArgument w else .unknownCommand w)
    else
      match r.waiting with
      | some (_, none) =>
        match r.word w with
        | .ok r => beforeCommand r ws
        | .error e => .error e
      | _ =>
        match Verb.ofName? w with
        | some verb => .ok (r, some (verb, ws))
        | none =>
          if w = helpWord then .error (helpOn ws)
          else
            match w.toList with
            | '-' :: _ :: _ =>
              match r.word w with
              | .ok r => beforeCommand r ws
              | .error e => .error e
            | _ => .error (.unknownCommand w)

/-! ## The whole -/

/-- What is asked, by what was given after the command. -/
def inquiryOf (verb : Verb) (g : Given) : Except Usage Inquiry :=
  match verb, g.operand with
  | .resolve, config => .ok (.resolve (config.getD defaultConfig) g.candidates g.dynamic)
  | .importMap, config => .ok (.importMap (config.getD defaultConfig) g.out)
  | .probe, some url => .ok (.probe url)
  | .probe, none => .error (.missingOperand .probe)

/-- The invocation of an inquiry, by what was given before the command and after it. -/
def Invocation.ofGiven (inquiry : Inquiry) (before after : Given) (page : Option String) :
    Invocation where
  inquiry := inquiry
  verbose := before.verbose || after.verbose
  page := (after.page.or (before.page.or page)).getD defaultPage
  proxyMode := after.proxyMode.or before.proxyMode
  retries := after.retries.or before.retries
  backoffMs := after.backoffMs.or before.backoffMs
  noGetFallback := before.noGetFallback || after.noGetFallback

/-- Read a command line. The page may be named by the environment; that counts as having said
    something. -/
def Invocation.read (page : Option String) (args : List String) : Except Usage Invocation := do
  let (before, command?) ← beforeCommand { verb := none } args
  match command? with
  | none =>
    let before ← before.settle
    throw (if before.given = {} ∧ page = none then .nothing else .noCommand)
  | some (verb, rest) =>
    let after ← ({ verb := some verb } : Reading).words rest
    let inquiry ← inquiryOf verb after.given
    let before ← before.settle
    return .ofGiven inquiry before.given after.given page

end Bundleless.Cli
