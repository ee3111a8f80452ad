import Stylesheet.Token.Reader
import Stylesheet.Value.Basic

/-!
# Reading values

A value is a comma list of space lists of expressions; what is written with no space between is
joined. Operators bind by their precedence and to the left.

* `Grammar`: which operators are read as such.
* `Reading.valueList`, `Reading.expression`, `Reading.interpolation`: the entry points.
* `Value.read`: reads a whole text as a value.

The functions with a count read with that many steps left; `Reader.room` is never used up, since
every token allows a bounded number of steps.
-/

namespace Stylesheet

/-- Which operators are read as operators. -/
structure Grammar where
  arithmetic : Bool := true
  comparison : Bool := false

/-- The operator of a token. -/
def Grammar.operator? (g : Grammar) (kind : TokenKind) : Option Operator :=
  if !g.arithmetic then none
  else
    match kind with
    | .plus => some .add
    | .minus => some .subtract
    | .star => some .multiply
    | .percent => some .modulo
    | .equals => if g.comparison then some .equal else none
    | .notEquals => if g.comparison then some .notEqual else none
    | .greater => if g.comparison then some .greater else none
    | .greaterEqual => if g.comparison then some .greaterEqual else none
    | .less => if g.comparison then some .less else none
    | .lessEqual => if g.comparison then some .lessEqual else none
    | _ => none

/-- The functions whose arguments are passed through, so that operators in them stay literal. -/
def rawFunctions : List String := ["calc", "min", "max", "clamp", "var", "env"]

/-- The grammar of the arguments of a function. -/
def Grammar.ofArguments (g : Grammar) (name : String) : Grammar :=
  if name.toLower ∈ rawFunctions then { g with arithmetic := false } else g

/-- Whether a token ends a space list. -/
def TokenKind.endsList : TokenKind → Bool
  | semicolon | comma | leftBrace | rightBrace | rightParen => true
  | _ => false

/-- Whether a token that stands where a value is read is taken as written. -/
def TokenKind.isVerbatim : TokenKind → Bool
  | str | hash | url | text | delim | colon | ampersand | unit | plus | minus | star | slash
  | percent | equals | notEquals | greater | greaterEqual | less | lessEqual => true
  | _ => false

namespace Value

def parts : Value → List Value
  | .joined parts => parts
  | v => [v]

/-- Two values with nothing between them. -/
def join (left right : Value) : Value := .joined (left.parts ++ right.parts)

/-- The value of an identifier. -/
def ofIdent (text : String) : Value :=
  if text = "true" then .boolean true
  else if text = "false" then .boolean false
  else .literal text

end Value

namespace Reading

/-- Consumes the parenthesis that closes the one at `opening`. -/
def closeParen (opening : Position) (reading : Construct) : Reading Unit := do
  match ← next with
  | none => fail (.unbalanced '(') opening
  | some t =>
    if t.kind = .rightParen then pure ()
    else if t.kind = .semicolon ∨ t.kind = .leftBrace ∨ t.kind = .rightBrace then
      fail (.unbalanced '(') opening
    else unexpected reading t

/-- A number and the unit glued to it. -/
def quantity (t : Token) : Reading Value := do
  match Numeral.read? t.text with
  | none => fail (.invalidNumber t.text) t.position
  | some n =>
    match ← peek with
    | some u =>
      if u.kind = .unit then
        skip
        return .quantity ⟨n.toDouble, u.text⟩
      else return .quantity ⟨n.toDouble, ""⟩
    | none => return .quantity ⟨n.toDouble, ""⟩

/-- Whether an opening parenthesis follows directly. -/
def callFollows : Reading Bool := do
  return (← peek).any fun t => t.kind = .leftParen && !t.spaceBefore

mutual

/-- A comma list of space lists. -/
def valueListIn (g : Grammar) : Nat → Reading Value
  | 0 => exhausted .value
  | n + 1 => do
    let first ← spaceListIn g [] n
    groupsIn g [first] n

/-- Goes on with a comma list, whose groups so far stand reversed in `groups`. -/
def groupsIn (g : Grammar) (groups : List Value) : Nat → Reading Value
  | 0 => exhausted .value
  | n + 1 => do
    if (← peekKind) = some .comma then
      skip
      let group ← spaceListIn g [] n
      groupsIn g (group :: groups) n
    else return .ofGroups groups.reverse

/-- Goes on with a space list, whose components so far stand reversed in `components`. -/
def spaceListIn (g : Grammar) (components : List Value) : Nat → Reading Value
  | 0 => exhausted .value
  | n + 1 => do
    match ← peek with
    | none => return .ofComponents components.reverse
    | some t =>
      if t.kind.endsList then return .ofComponents components.reverse
      else
        let term ← binaryIn g 0 n
        match components with
        | [] => spaceListIn g [term] n
        | last :: before =>
          if t.spaceBefore then spaceListIn g (term :: components) n
          else spaceListIn g (last.join term :: before) n

/-- An expression whose operators bind at least as tight as `least`. -/
def binaryIn (g : Grammar) (least : Nat) : Nat → Reading Value
  | 0 => exhausted .value
  | n + 1 => do
    let left ← primaryIn g n
    operatorsIn g least left n

/-- Goes on with an expression after its left operand. -/
def operatorsIn (g : Grammar) (least : Nat) (left : Value) : Nat → Reading Value
  | 0 => exhausted .value
  | n + 1 => do
    match (← peekKind).bind g.operator? with
    | none => return left
    | some op =>
      if op.precedence < least then return left
      else
        skip
        let right ← binaryIn g (op.precedence + 1) n
        operatorsIn g least (.binary left op right) n

/-- An operand. -/
def primaryIn (g : Grammar) : Nat → Reading Value
  | 0 => exhausted .value
  | n + 1 => do
    let t ← require .value
    match t.kind with
    | .number => quantity t
    | .reference => return .reference t.name
    | .ident => if ← callFollows then callIn g t.text n else return .ofIdent t.text
    | .interpolation =>
      let v ← interpolationIn g n
      setMode .value
      return .joined [v]
    | .leftParen =>
      let v ← valueListIn g n
      closeParen t.position .value
      return v
    | kind => if kind.isVerbatim then return .literal t.text else unexpected .value t

/-- The arguments of a function whose name was read. -/
def callIn (g : Grammar) (name : String) : Nat → Reading Value
  | 0 => exhausted .value
  | n + 1 => do
    let opening ← expect .leftParen .function
    let args ← if (← peekKind) = some .rightParen then pure (.list [] .space)
      else valueListIn (g.ofArguments name) n
    closeParen opening.position .function
    return .call name args

/-- The inside of an interpolation and its closing brace. -/
def interpolationIn (g : Grammar) : Nat → Reading Value
  | 0 => exhausted .value
  | n + 1 => do
    setMode .value
    let v ← binaryIn { g with arithmetic := true } 0 n
    let _ ← expect .rightBrace .interpolation
    return v

end

/-! ## Entry points -/

/-- A comma list of space lists. -/
def valueList : Reading Value := do valueListIn {} (← room)

/-- A space list. -/
def spaceList : Reading Value := do spaceListIn {} [] (← room)

/-- A condition or the bound of a loop, where comparisons are operators too. -/
def condition : Reading Value := do
  setMode .value
  binaryIn { comparison := true } 0 (← room)

/-- The inside of an interpolation, after its opening mark. -/
def interpolation : Reading Value := do interpolationIn {} (← room)

end Reading

/-- Reads a whole text as a value. -/
def Value.read (source : String) : Except SyntaxError Value :=
  let reading : Reading Value := do
    Reading.setMode .value
    let v ← Reading.valueList
    match ← Reading.next with
    | none => return v
    | some t => Reading.unexpected .value t
  (reading.run (.ofSource source)).map Prod.fst

end Stylesheet
