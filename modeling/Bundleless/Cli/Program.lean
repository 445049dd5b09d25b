import Bundleless.Cli.Inspection

/-! # The program

    A command line from its words to what is left behind: the lines it
    prints, the complaints it makes, the file it writes and its exit code.
-/

namespace Bundleless.Cli

/-! ## About the program -/

namespace Program

/-- The name of the program. -/
def name : String := "spacey-boot"

/-- The version of the program. -/
def version : String := "0.1.0"

/-- The variable that names the page. -/
def pageVariable : String := Settings.variablePrefix ++ "PAGE"

/-- The program, or one of its commands, with the version. -/
def versionLine (verb : Option Verb) : String :=
  name ++ ((verb.map fun v => "-" ++ v.name).getD "") ++ " " ++ version

/-- What is said before anything else where much is to be said. -/
def banner (page : String) : String :=
  Style.bold.paint (Style.cyan.paint name) ++ " " ++ Style.dim.paint version ++ " (page: " ++ page
    ++ ")"

end Program

/-! ## Help -/

/-- The operand of a command. -/
def Verb.operand : Verb → String
  | .resolve | .importMap => "[CONFIG]"
  | .probe => "<URL>"

/-- What a command is for. -/
def Verb.purpose : Verb → String
  | .resolve => "Resolve every tool and module of a configuration"
  | .importMap => "Print the import map for a configuration's modules"
  | .probe => "Probe a single URL"

/-- What an option is for. -/
def Flag.purpose : Flag → String
  | .verbose => "Enable verbose output"
  | .page => "Page URL the loader runs on; drives CI/production provider choice"
  | .proxyMode => "Provider preference: auto, proxy, or direct"
  | .retries => "Retry credits per probe"
  | .backoffMs => "Base probe backoff in milliseconds"
  | .noGetFallback => "Do not retry a rejected HEAD as GET"
  | .candidates => "List every candidate URL instead of probing"
  | .dynamic => "Also resolve these dynamic module names (e.g. icons/Home)"
  | .out => "Write the import map to this file instead of stdout"
  | .help => "Print help"
  | .version => "Print version"

/-- An option as it is written. -/
def Flag.usage (f : Flag) : String :=
  ((f.letter?.map fun c => String.ofList ['-', c, ',', ' ']).getD "    ") ++ "--" ++ f.name
    ++ (if f.takesValue then " <VALUE>" else "")

/-- The help on the whole or on a command. -/
def helpLines (verb : Option Verb) : List String :=
  let commands :=
    match verb with
    | some v => [v.purpose, "", "Usage: " ++ Program.name ++ " " ++ v.name ++ " [OPTIONS] "
        ++ v.operand]
    | none => ["Usage: " ++ Program.name ++ " [OPTIONS] <COMMAND>", "", "Commands:"]
        ++ Verb.all.map fun v => "  " ++ v.name ++ "  " ++ v.purpose
  let known := Flag.all.filter (·.isKnown verb)
  let options := known.map fun f => "  " ++ f.usage ++ "  " ++ f.purpose
  commands ++ ["", "Options:"] ++ options

/-- What is wrong with a command line. -/
def Usage.message : Usage → String
  | .nothing | .noCommand => "a command is required"
  | .unknownCommand word => "unrecognized subcommand '" ++ word ++ "'"
  | .unknownArgument word => "unexpected argument '" ++ word ++ "' found"
  | .missingOperand verb => "a required argument was not provided: " ++ verb.operand
  | .missingValue f => "a value is required for '--" ++ f.name ++ "' but none was supplied"
  | .invalidValue f value => "invalid value '" ++ value ++ "' for '--" ++ f.name ++ "'"
  | .needlessValue f value => "unexpected value '" ++ value ++ "' for '--" ++ f.name ++ "' found"
  | .repeated f => "the argument '--" ++ f.name ++ "' cannot be used multiple times"
  | .help _ => "help was asked for"
  | .version _ => "the version was asked for"

/-! ## Runs -/

/-- What a run of the program leaves behind. -/
structure Exit where
  code : Nat
  lines : List String := []
  errors : String := ""
deriving DecidableEq, Repr, Inhabited

namespace Exit

/-- The end of a run whose command line led to no inquiry. Asking about the program is no
    error. -/
def ofUsage (u : Usage) : Exit :=
  match u with
  | .help verb => { code := 0, lines := helpLines verb }
  | .version verb => { code := 0, lines := [Program.versionLine verb] }
  | .nothing => { code := 2, errors := Text.join "\n" (helpLines none) }
  | u => { code := 2, errors := "error: " ++ u.message }

/-- The end of a run that came to an answer, with what was said before it. -/
def ofAnswer (before : List String) (a : Answer) : Exit :=
  { code := if a.complaint.isSome then 1 else 0
    lines := before ++ a.lines
    errors := (a.complaint.map Complaint.report).getD "" }

/-- What is printed. -/
def output (e : Exit) : String := String.join (e.lines.map (· ++ "\n"))

end Exit

/-- A command line that was understood, and the bench on which it is carried out. -/
structure Plan where
  invocation : Invocation
  bench : Except Complaint Bench

namespace Plan

/-- The plan of a command line in an environment. -/
def read (env : List (String × String)) (args : List String) : Except Usage Plan := do
  let i ← Invocation.read (Table.get? Program.pageVariable env) args
  return ⟨i, Bench.ofInvocation i (Settings.ofEnvironment env)⟩

/-- What is said before anything is done. -/
def preamble (p : Plan) : List String :=
  if p.invocation.verbose then [Program.banner p.invocation.page] else []

/-- What the inquiry comes to, given how the files are read. It comes to nothing only if it never
    ends. -/
def outcome? (p : Plan) (network : Network) (file : Except FileFault String) : Option Outcome :=
  match p.bench with
  | .error c => some (.ofComplaint c)
  | .ok b =>
    (b.carry? network (b.inquire file p.invocation.inquiry).run).map fun
      | .ok o => o
      | .error c => .ofComplaint c

/-- What reading the configuration as a file yields. -/
def file (p : Plan) (read : String → Except FileFault String) : Except FileFault String :=
  read (p.invocation.inquiry.config?.getD "")

/-- Carry out the plan on the files of a folder: the answer, and the files afterwards. -/
def conduct (p : Plan) (network : Network) (files : Folder) : Answer × Folder :=
  match p.outcome? network (p.file files.read) with
  | none => ({}, files)
  | some (.answer a) => (a, files)
  | some (.write path text count) =>
    match files.write path text with
    | .ok after => (.ofWrite path count (.ok ()), after)
    | .error fault => (.ofWrite path count (.error fault), files)

end Plan

namespace Program

/-- Run the program on the files of a folder. -/
def run (env : List (String × String)) (args : List String) (network : Network)
    (files : Folder) : Exit × Folder :=
  match Plan.read env args with
  | .error u => (.ofUsage u, files)
  | .ok p =>
    let (a, after) := p.conduct network files
    (.ofAnswer p.preamble a, after)

end Program

end Bundleless.Cli
