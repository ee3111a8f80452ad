import Stylesheet.Number.Decimal
import Stylesheet.Text.Lines
import Stylesheet.Text.Position
import Stylesheet.Value.Basic

/-!
# What can go wrong

* `SyntaxFault`, `SyntaxError`: why and where a text is malformed.
* `Limit`: the ceilings of one compilation.
* `CompileError`: every cause for which a compilation fails, with its message.
-/

namespace Stylesheet

/-! ## Malformed text -/

/-- The constructs that a diagnostic names. -/
inductive Construct where
  | stylesheet
  | block
  | comment
  | selector
  | interpolation
  | declaration
  | assignment
  | atRule
  | importRule
  | mixin
  | inclusion
  | ifRule
  | elseRule
  | forRule
  | value
  | number
  | function
  deriving DecidableEq

def Construct.text : Construct → String
  | stylesheet => "stylesheet"
  | block => "block"
  | comment => "comment"
  | selector => "selector"
  | interpolation => "interpolation"
  | declaration => "declaration"
  | assignment => "assignment"
  | atRule => "at-rule"
  | importRule => "import"
  | mixin => "mixin"
  | inclusion => "include"
  | ifRule => "if"
  | elseRule => "else"
  | forRule => "for"
  | value => "value"
  | number => "number"
  | function => "function"

/-- Why a text is malformed. -/
inductive SyntaxFault where
  | unterminatedComment
  | unterminatedString
  | unterminatedUrl
  | unbalanced (opening : Char)
  | strayClosing (closing : Char)
  | unexpectedToken (reading : Construct) (text : String)
  | unexpectedEnd (reading : Construct)
  | unclosedBlock
  | missingSelector
  | missingValue (name : String)
  | declarationOutsideRule
  | elseWithoutIf
  | invalidNumber (text : String)
  deriving DecidableEq

def SyntaxFault.message : SyntaxFault → String
  | unterminatedComment => "Unterminated comment"
  | unterminatedString => "Unterminated string"
  | unterminatedUrl => "Unterminated url("
  | unbalanced opening => "Unbalanced '" ++ opening.toString ++ "'"
  | strayClosing closing => "Unexpected '" ++ closing.toString ++ "' in selector"
  | unexpectedToken reading text =>
    "Unexpected token reading " ++ reading.text ++ ". Was '" ++ text ++ "'"
  | unexpectedEnd reading => "Unexpected EOF reading '" ++ reading.text ++ "'"
  | unclosedBlock => "The block is unclosed, '\x7d' expected"
  | missingSelector => "Missing selector before '\x7b'"
  | missingValue name => "Missing value for '" ++ name ++ "'"
  | declarationOutsideRule => "Declarations must be inside a rule"
  | elseWithoutIf => "@else without a matching @if"
  | invalidNumber text => "Invalid number '" ++ text ++ "'"

/-- A malformed text: the cause, the place, and the source lines quoted with it. -/
structure SyntaxError where
  fault : SyntaxFault
  position : Position
  lines : List SourceLine := []
  deriving DecidableEq

/-- Quotes the source unless it is quoted already. -/
def SyntaxError.withSource (e : SyntaxError) (source : String) : SyntaxError :=
  if e.lines.isEmpty then { e with lines := SourceLine.around source e.position.line } else e

def SyntaxError.message (e : SyntaxError) : String :=
  e.fault.message ++ " (at " ++ e.position.text ++ ")"

/-! ## Limits -/

/-- The ceilings of one compilation. -/
inductive Limit where
  | nestingDepth
  | includes
  | nodes
  | imports
  | loopIterations
  | resolution
  | evaluationDepth
  deriving DecidableEq

namespace Limit

def max : Limit → Nat
  | nestingDepth => 6
  | includes => 1000
  | nodes => 50000
  | imports => 200
  | loopIterations => 10000
  | resolution => 10000
  | evaluationDepth => 256

def text : Limit → String
  | nestingDepth => "nesting depth"
  | includes => "include"
  | nodes => "node"
  | imports => "import"
  | loopIterations => "loop iteration"
  | resolution => "variable resolution"
  | evaluationDepth => "expression depth"

end Limit

/-! ## Failures of a compilation -/

inductive CompileError where
  | malformed (error : SyntaxError)
  | mixinNotRegistered (name : String)
  | functionNotRegistered (name : String)
  /-- A variable bound to itself. -/
  | selfReference (name : String)
  /-- A parent reference in a rule that has no parent. -/
  | parentOutsideRule (selector : String)
  | limitExceeded (limit : Limit) (detail : String)
  | invalidLoopRange (first last : Int)
  | notANumber (text : String)
  | typeIncompatible (op : Operator) (left right : String)
  deriving DecidableEq

def CompileError.message : CompileError → String
  | malformed error => "Syntax error: " ++ error.message
  | mixinNotRegistered name => "Mixin '" ++ name ++ "' not registered"
  | functionNotRegistered name => "function named '" ++ name ++ "' not registered"
  | selfReference name => "Self referencing variable $" ++ name
  | parentOutsideRule selector =>
    "Parent selector '&' used outside of a style rule: " ++ selector
  | limitExceeded limit detail =>
    "Exceeded " ++ limit.text ++ " limit of " ++ Decimal.text limit.max ++
      (if detail.isEmpty then "" else ". Was " ++ detail)
  | invalidLoopRange first last =>
    "Loop end (" ++ Decimal.textInt last ++ ") must not be before its start (" ++
      Decimal.textInt first ++ ")"
  | notANumber text => "Expected a number but found '" ++ text ++ "'"
  | typeIncompatible op left right =>
    "Operator '" ++ op.text ++ "' cannot be applied to '" ++ left ++ "' and '" ++ right ++ "'"

/-- The coarse classes of failures. -/
inductive ErrorKind where
  | malformed
  | unresolved
  | limitExceeded
  | typeIncompatible
  deriving DecidableEq

def CompileError.kind : CompileError → ErrorKind
  | malformed _ => .malformed
  | mixinNotRegistered _ | functionNotRegistered _ | selfReference _ | parentOutsideRule _ =>
    .unresolved
  | limitExceeded _ _ | invalidLoopRange _ _ => .limitExceeded
  | typeIncompatible _ _ _ | notANumber _ => .typeIncompatible

end Stylesheet
