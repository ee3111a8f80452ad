import Stylesheet.Compile
import Stylesheet.Config.Basic

/-!
# The command

`build INPUT [-o OUTPUT] [-c CONFIG] [-b BROWSER]… [-v]` compiles a file. What the command does is
decided here, for any way of reading files.

* `Request`: what the arguments ask for.
* `Request.read?`: reads the arguments.
* `Plan`: what is to be done; `Request.plan`.
* `Report`, `runOn`: the command on a disk.
-/

namespace Stylesheet

structure BuildOptions where
  input : Option String := none
  output : Option String := none
  config : Option String := none
  browsers : List String := []
  verbose : Bool := false
  deriving DecidableEq

/-- What the arguments ask for. -/
inductive Request where
  | help
  | build (input : String) (options : BuildOptions)
  deriving DecidableEq

/-! ## Arguments -/

/-- The options that take a value. -/
inductive ValueOption where
  | output
  | config
  | browser
  deriving DecidableEq

namespace ValueOption

def ofLetter? : Char → Option ValueOption
  | 'o' => some output
  | 'c' => some config
  | 'b' => some browser
  | _ => none

def ofName? : String → Option ValueOption
  | "output" => some output
  | "config" => some config
  | "browser" => some browser
  | _ => none

end ValueOption

namespace BuildOptions

/-- Gives a value to an option. Only browsers may be given more than once. -/
def set? (o : BuildOptions) : ValueOption → String → Option BuildOptions
  | .output, v => if o.output.isSome then none else some { o with output := some v }
  | .config, v => if o.config.isSome then none else some { o with config := some v }
  | .browser, v => some { o with browsers := o.browsers ++ [v] }

def setVerbose? (o : BuildOptions) : Option BuildOptions :=
  if o.verbose then none else some { o with verbose := true }

def setInput? (o : BuildOptions) (v : String) : Option BuildOptions :=
  if o.input.isSome then none else some { o with input := some v }

end BuildOptions

/-- What one argument of the command is. -/
inductive Argument where
  | help
  /-- Everything after this one is taken as it is. -/
  | rest
  | plain (text : String)
  | complete (o : BuildOptions)
  /-- An option whose value is the next argument. -/
  | awaiting (option : ValueOption) (o : BuildOptions)

/-- A run of letters after one dash. The first option that takes a value takes the letters after it,
if there are any. -/
def readLetters? (o : BuildOptions) : List Char → Option Argument
  | [] => some (.complete o)
  | 'v' :: rest => o.setVerbose?.bind fun o => readLetters? o rest
  | 'h' :: _ => some .help
  | c :: rest => do
    let option ← ValueOption.ofLetter? c
    match rest with
    | [] => some (.awaiting option o)
    | '=' :: value => (o.set? option (String.ofList value)).map .complete
    | value => (o.set? option (String.ofList value)).map .complete

/-- A name after two dashes, with a value after an equals sign or without. -/
def readName? (o : BuildOptions) (chars : List Char) : Option Argument :=
  let name := String.ofList (chars.takeWhile (· != '='))
  match chars.dropWhile (· != '=') with
  | [] =>
    if name = "verbose" then o.setVerbose?.map .complete
    else if name = "help" then some .help
    else (ValueOption.ofName? name).map fun option => .awaiting option o
  | _ :: value => do
    let option ← ValueOption.ofName? name
    return .complete (← o.set? option (String.ofList value))

def readArgument? (o : BuildOptions) (arg : String) : Option Argument :=
  match arg.toList with
  | ['-', '-'] => some .rest
  | '-' :: '-' :: name => readName? o name
  | ['-'] => some (.plain arg)
  | '-' :: letters => readLetters? o letters
  | _ => some (.plain arg)

/-- Whether an argument can be the value of the option before it. -/
def isValue (arg : String) : Bool := arg == "-" || arg.toList.head? != some '-'

/-- The request of options that are complete. -/
def BuildOptions.request? (o : BuildOptions) : Option Request :=
  o.input.map fun input => .build input o

/-- Reads the arguments of `build`. -/
def readBuild? (o : BuildOptions) : List String → Option Request
  | [] => o.request?
  | arg :: args => do
    match ← readArgument? o arg with
    | .help => some .help
    | .rest =>
      let o ← args.foldlM BuildOptions.setInput? o
      o.request?
    | .plain text =>
      let o ← o.setInput? text
      readBuild? o args
    | .complete o => readBuild? o args
    | .awaiting option o =>
      match args with
      | value :: args =>
        if isValue value then
          let o ← o.set? option value
          readBuild? o args
        else none
      | [] => none

/-- Reads the arguments of the command; nothing if they are malformed. -/
def Request.read? : List String → Option Request
  | "build" :: args => readBuild? {} args
  | ["help"] | ["help", "build"] | ["help", "help"] => some .help
  | "-h" :: _ | "--help" :: _ => some .help
  | _ => none

/-! ## Failures -/

/-- A failure of the command, and what lies behind it. -/
structure Failure where
  message : String
  cause : Option String := none
  deriving DecidableEq

namespace Failure

/-- A text with each of its lines indented. -/
def indented (text : String) : String :=
  "    " ++ "\n    ".intercalate ((Text.splitOn '\n' text.toList).map String.ofList)

def text (f : Failure) : String :=
  "Error: " ++ f.message ++
    (match f.cause with
      | some cause => "\n\nCaused by:\n" ++ indented cause
      | none => "") ++ "\n"

end Failure

/-! ## Plans -/

/-- The directory of a file with its slash, as the path says it. -/
def directoryOf (path : String) : String :=
  String.ofList (path.toList.reverse.dropWhile (· != '/')).reverse

/-- Adds the browsers that arguments name. -/
def addBrowsers (targets : List Browser) : List String → Except Failure (List Browser)
  | [] => .ok targets
  | arg :: args =>
    match Browser.read arg with
    | .ok b => addBrowsers (targets ++ [b]) args
    | .error e => .error { message := e.message }

/-- The context of a build. -/
def buildContext (read : String → Except FileError String) (o : BuildOptions) :
    Except Failure Context := do
  let failure (e : ConfigError) : Failure := ⟨e.message, some e.cause⟩
  let config ← match o.config with
    | some path => (Config.load read path).mapError failure
    | none => .ok {}
  let targets ← addBrowsers config.targets o.browsers
  ({ config with targets } : Config).context.mapError failure

/-- The CSS of a build. Imports are read from the directory of the input. -/
def buildCss (read : String → Except FileError String) (input : String) (o : BuildOptions) :
    Except Failure String := do
  let context ← buildContext read o
  match read input with
  | .error e => .error ⟨"Failed to read " ++ input, some e.message⟩
  | .ok source =>
    let resolver : Resolver := { read := fun path => (read (directoryOf input ++ path)).toOption }
    match compile context (some resolver) source with
    | .error e => .error ⟨"Failed to compile " ++ input, some e.message⟩
    | .ok css => .ok css

/-- What is to be done. -/
inductive Plan where
  /-- The arguments are malformed. -/
  | refuse
  | help
  | fail (f : Failure)
  | print (css : String)
  | save (path css : String)

def Plan.ofArguments (read : String → Except FileError String) (args : List String) : Plan :=
  match Request.read? args with
  | none => .refuse
  | some .help => .help
  | some (.build input o) =>
    match buildCss read input o, o.output with
    | .error f, _ => .fail f
    | .ok css, none => .print css
    | .ok css, some path => .save path css

/-- The failure to write a file. -/
def Failure.ofWrite (path : String) (e : FileError) : Failure :=
  ⟨"Failed to write " ++ path, some e.message⟩

def usage : String :=
  "Compiles nested, variable-aware stylesheets to CSS\n\n" ++
    "Usage: build [OPTIONS] <INPUT>\n\n" ++
    "Options:\n" ++
    "  -o, --output <OUTPUT>    Write CSS here instead of stdout\n" ++
    "  -c, --config <CONFIG>    JSON file with browser targets and variables\n" ++
    "  -b, --browser <BROWSER>  Extra browser target, e.g. chrome:30. May be repeated\n" ++
    "  -v, --verbose\n" ++
    "  -h, --help\n"

/-- What a run of the command shows. -/
structure Report where
  exitCode : Nat := 0
  stdout : String := ""
  stderr : String := ""
  deriving DecidableEq

def Failure.report (f : Failure) : Report := { exitCode := 1, stderr := f.text }

/-- Runs the command on a disk. -/
def runOn (disk : Disk) (args : List String) : Report × Disk :=
  match Plan.ofArguments disk.read args with
  | .refuse => ({ exitCode := 2, stderr := usage }, disk)
  | .help => ({ stdout := usage }, disk)
  | .fail f => (f.report, disk)
  | .print css => ({ stdout := css ++ "\n" }, disk)
  | .save path css =>
    match disk.write path css with
    | .ok disk => ({}, disk)
    | .error e => ((Failure.ofWrite path e).report, disk)

end Stylesheet
