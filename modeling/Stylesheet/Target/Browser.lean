import Stylesheet.Number.Decimal
import Stylesheet.Text.Blank

/-!
# Browsers

* `Browser`: a browser and its version, as a target to write for.
* `Browser.read`: reads `name:version`.
* `Vendor`: the vendor whose mark a browser puts before the names of unfinished features.
-/

namespace Stylesheet

inductive Vendor where
  | moz
  | ms
  | webkit
  deriving DecidableEq

/-- What a vendor puts before a name. -/
def Vendor.mark : Vendor → String
  | moz => "-moz-"
  | ms => "-ms-"
  | webkit => "-webkit-"

inductive BrowserKind where
  | chrome
  | edge
  | firefox
  | internetExplorer
  | opera
  | safari
  deriving DecidableEq

namespace BrowserKind

def all : List BrowserKind := [chrome, edge, firefox, internetExplorer, opera, safari]

def vendor : BrowserKind → Vendor
  | chrome | safari | opera => .webkit
  | firefox => .moz
  | internetExplorer | edge => .ms

/-- The name by which a browser is chosen. -/
def name : BrowserKind → String
  | chrome => "chrome"
  | edge => "edge"
  | firefox => "firefox"
  | internetExplorer => "ie"
  | opera => "opera"
  | safari => "safari"

/-- The name by which a browser is shown. -/
def title : BrowserKind → String
  | chrome => "Chrome"
  | edge => "Edge"
  | firefox => "Firefox"
  | internetExplorer => "InternetExplorer"
  | opera => "Opera"
  | safari => "Safari"

def ofName? (name : String) : Option BrowserKind := all.find? (·.name = name)

end BrowserKind

/-- A browser and its version. -/
structure Browser where
  kind : BrowserKind
  version : Float32

/-- Why a text names no browser. -/
inductive BrowserError where
  | noVersion (text : String)
  | unknownName (name : String)
  | invalidVersion (text : String)
  deriving DecidableEq

def BrowserError.message : BrowserError → String
  | noVersion text => "expected <browser>:<version>, got '" ++ text ++ "'"
  | unknownName name => "unknown browser '" ++ name ++ "'"
  | invalidVersion text => "invalid version '" ++ text ++ "'"

namespace Browser

def vendor (b : Browser) : Vendor := b.kind.vendor

/-- Reads `name:version`, with a name in any letter case and white space around both. -/
def read (text : String) : Except BrowserError Browser :=
  let chars := text.toList
  if ':' ∈ chars then
    let name := (Text.trim (String.ofList (chars.takeWhile (· != ':')))).toLower
    let version := String.ofList ((chars.dropWhile (· != ':')).drop 1)
    match BrowserKind.ofName? name with
    | none => .error (.unknownName name)
    | some kind =>
      match Numeral.read? (Text.trim version) with
      | none => .error (.invalidVersion version)
      | some n => .ok ⟨kind, n.toSingle⟩
  else .error (.noVersion text)

def text (b : Browser) : String := b.kind.title ++ " " ++ Decimal.ofSingle b.version

end Browser

/-- The version of the first target of a kind, or zero if there is none. -/
def targetVersion (targets : List Browser) (kind : BrowserKind) : Float32 :=
  match targets.find? (·.kind = kind) with
  | some b => b.version
  | none => 0

end Stylesheet
