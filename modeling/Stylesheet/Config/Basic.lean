import Stylesheet.Command.Disk
import Stylesheet.Config.Json
import Stylesheet.Context
import Stylesheet.Value.Reader

/-!
# Configurations

Targets and variables of a compilation, read from JSON such as

    {"browsers": [{"browser": "chrome", "version": 30}], "variables": {"primary": "#336699"}}

A record may also be written as an array of its fields in order. Fields that are not known are
passed over.

* `Config.read?`: the configuration in a text.
* `Config.context`: the context that it describes.
-/

namespace Stylesheet

structure Config where
  targets : List Browser := []
  /-- Names and value texts, in the order of the names. -/
  bindings : List (String × String) := []

/-- Why there is no context. -/
inductive ConfigError where
  | unreadable (path : String) (cause : FileError)
  | malformed (path : String)
  | variableFault (name : String) (error : SyntaxError)
  deriving DecidableEq

namespace ConfigError

/-- What lies behind an error. -/
def cause : ConfigError → String
  | unreadable _ e => e.message
  | malformed _ => "not a configuration"
  | variableFault _ e => (CompileError.malformed e).message

def message : ConfigError → String
  | unreadable path e => "Could not read " ++ path ++ ": " ++ e.message
  | malformed path => "Invalid JSON in " ++ path ++ ": not a configuration"
  | variableFault name e =>
    "Invalid value for $" ++ name ++ ": " ++ (CompileError.malformed e).message

end ConfigError

namespace Config

/-! ## Reading -/

/-- The fields of a record; each key has to be a text. -/
def fields? (fields : List (Option String × JsonTree)) : Option (List (String × JsonTree)) :=
  fields.mapM fun (key, tree) => key.map fun key => (key, tree)

/-- A field that is missing or given once. -/
def field? (fields : List (String × JsonTree)) (key : String) : Option (Option JsonTree) :=
  match fields.filter fun f => f.1 == key with
  | [] => some none
  | [(_, tree)] => some (some tree)
  | _ => none

def browserKind? : JsonTree → Option BrowserKind
  | .string (some name) => BrowserKind.ofName? name
  | .object [(some name, .null)] => BrowserKind.ofName? name
  | _ => none

def version? : JsonTree → Option Float32
  | .number n => n.toSingle?
  | _ => none

def browser? : JsonTree → Option Browser
  | .object fields => do
    let fields ← fields? fields
    let kind ← browserKind? (← ← field? fields "browser")
    let version ← version? (← ← field? fields "version")
    return ⟨kind, version⟩
  | .array [kind, version] => do return ⟨← browserKind? kind, ← version? version⟩
  | _ => none

def targets? : JsonTree → Option (List Browser)
  | .array items => items.mapM browser?
  | _ => none

def binding? : Option String × JsonTree → Option (String × String)
  | (some name, .string (some text)) => some (name, text)
  | _ => none

/-- Variables by name; of several with one name the last one counts. -/
def bindings? : JsonTree → Option (List (String × String))
  | .object fields => do
    return (Table.empty.insertAll (← fields.mapM binding?)).entries
  | _ => none

/-- A configuration from the values of its two fields. -/
def ofFields? (targets bindings : Option JsonTree) : Option Config := do
  let targets ← match targets with
    | some tree => targets? tree
    | none => some []
  let bindings ← match bindings with
    | some tree => bindings? tree
    | none => some []
  return ⟨targets, bindings⟩

def ofTree? : JsonTree → Option Config
  | .object fields => do
    let fields ← fields? fields
    ofFields? (← field? fields "browsers") (← field? fields "variables")
  | .array [] => ofFields? none none
  | .array [targets] => ofFields? (some targets) none
  | .array [targets, bindings] => ofFields? (some targets) (some bindings)
  | _ => none

/-- The configuration in a text. -/
def read? (text : String) : Option Config := (JsonTree.read? text).bind ofTree?

/-- The configuration in a file, by way of `read` for its text. -/
def load (read : String → Except FileError String) (path : String) : Except ConfigError Config :=
  match read path with
  | .error e => .error (.unreadable path e)
  | .ok text =>
    match read? text with
    | some config => .ok config
    | none => .error (.malformed path)

/-! ## Contexts -/

/-- Binds variables in order. -/
def bindVariables (frame : Frame) : List (String × String) → Except ConfigError Frame
  | [] => .ok frame
  | (name, text) :: rest =>
    match Value.read text with
    | .ok v => bindVariables (frame.insert name v) rest
    | .error e => .error (.variableFault name e)

/-- The context that a configuration describes. -/
def context (c : Config) : Except ConfigError Context := do
  let globals ← bindVariables .empty c.bindings
  return { targets := c.targets, globals }

end Config

end Stylesheet
