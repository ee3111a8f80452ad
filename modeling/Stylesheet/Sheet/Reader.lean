import Stylesheet.Sheet.Basic
import Stylesheet.Text.Blank
import Stylesheet.Value.Reader

/-!
# Reading sheets

Looking ahead for what ends an item tells a nested rule from a declaration: the item of a rule ends
in an opening brace, that of a declaration in a semicolon or a closing brace.

* `Reading.selector`, `Reading.prelude`, `Reading.declaration`, …: the kinds of items.
* `Sheet.read`: reads a whole text as a sheet.
-/

namespace Stylesheet

namespace Reading

/-! ## Selectors and preludes -/

/-- Goes on with a selector up to its opening brace. Alternatives and pieces so far are reversed. -/
def selectorFrom (alternatives : List Alternative) (current : Alternative) :
    Nat → Reading Selector
  | 0 => exhausted .selector
  | n + 1 => do
    let t ← require .selector
    let current := if t.spaceBefore then .space :: current else current
    match t.kind with
    | .leftBrace => return .ofAlternatives (current.reverse :: alternatives).reverse
    | .comma => selectorFrom (current.reverse :: alternatives) [] n
    | .ampersand => selectorFrom alternatives (.parent :: current) n
    | .interpolation =>
      let v ← interpolation
      setMode .selector
      selectorFrom alternatives (.value v :: current) n
    | .rightBrace | .semicolon => unexpected .selector t
    | _ => selectorFrom alternatives (.word t.text :: current) n

/-- A selector with its opening brace. -/
def selector : Reading Selector := do
  let start ← here
  let s ← selectorFrom [] [] (← room)
  if s.isEmpty then fail .missingSelector start else return s

/-- A text with a word added; one space stands between them if the source has one there. -/
def addWord (text : String) (spaceBefore : Bool) (word : String) : String :=
  if spaceBefore && !text.isEmpty then text ++ " " ++ word else text ++ word

/-- Goes on with the text of an at-rule up to the brace or semicolon after it, and says whether a
block follows. -/
def preludeFrom (blockRequired : Bool) (text : String) : Nat → Reading (String × Bool)
  | 0 => exhausted .atRule
  | n + 1 => do
    match ← next with
    | none => if blockRequired then unexpectedEnd .atRule else return (text, false)
    | some t =>
      match t.kind with
      | .leftBrace => return (text, true)
      | .semicolon => if blockRequired then unexpected .atRule t else return (text, false)
      | .rightBrace =>
        if blockRequired then unexpected .atRule t
        else
          giveBack t
          return (text, false)
      | .interpolation =>
        let v ← interpolation
        setMode .selector
        preludeFrom blockRequired (addWord text t.spaceBefore v.text) n
      | _ => preludeFrom blockRequired (addWord text t.spaceBefore t.text) n

/-- The text between the name of an at-rule and its block or its end. -/
def prelude (blockRequired : Bool) : Reading (String × Bool) := do
  setMode .selector
  let (text, hasBlock) ← preludeFrom blockRequired "" (← room)
  if !hasBlock then setMode .block
  return (text, hasBlock)

/-! ## Statements -/

/-- Goes on with the name of a declaration up to its colon. -/
def propertyName (name : String) : Nat → Reading String
  | 0 => exhausted .declaration
  | n + 1 => do
    let t ← require .declaration
    match t.kind with
    | .colon => if name.isEmpty then unexpected .declaration t else return name
    | .ident | .star | .delim | .minus | .number | .unit => propertyName (name ++ t.text) n
    | _ => unexpected .declaration t

/-- A declaration, which starts at `position`. -/
def declaration (position : Position) : Reading Node := do
  let name ← propertyName "" (← room)
  setMode .value
  let value ← valueList
  match value with
  | .list [] _ => fail (.missingValue name) (← here)
  | _ =>
    endStatement .declaration
    return .declaration { name, value, position }

/-- Splits off the mark of a default at the end of a value. -/
def splitDefault : Value → Value × Bool
  | .list items .space =>
    match items.getLast? with
    | some (.literal "!default") => (.ofComponents items.dropLast, true)
    | _ => (.list items .space, false)
  | v => (v, false)

def assignment : Reading Node := do
  let t ← expect .reference .assignment
  setMode .value
  let _ ← expect .colon .assignment
  let (value, isDefault) := splitDefault (← valueList)
  endStatement .assignment
  return .assignment { name := t.name, value, isDefault }

/-- A text without the white space and the pair of quotes around it. -/
def unquote (text : String) : String :=
  let chars := (Text.trim text).toList
  let inner := String.ofList (chars.drop 1).dropLast
  if 2 ≤ chars.length ∧ chars.head? = chars.getLast? ∧
      (chars.head? = some '"' ∨ chars.head? = some '\'') then inner
  else String.ofList chars

/-- Passes over everything before the end of a statement. -/
def skipStatement : Nat → Reading Unit
  | 0 => exhausted .importRule
  | n + 1 => do
    match ← peekKind with
    | none | some .semicolon | some .rightBrace => pure ()
    | some _ =>
      skip
      skipStatement n

/-- An import; a media list after the url is not kept. -/
def importRule : Reading Node := do
  setMode .value
  let t ← require .importRule
  match t.kind with
  | .str => finish (unquote t.text)
  | .url => finish (unquote (String.ofList (t.text.toList.drop 4).dropLast))
  | _ => unexpected .importRule t
where
  finish (url : String) : Reading Node := do
    skipStatement (← room)
    endStatement .importRule
    return .importRule url

/-- The use of a mixin, whose rule starts at `position`. -/
def inclusion (position : Position) : Reading Node := do
  setMode .value
  let name := (← expect .ident .inclusion).text
  let args ← if (← peekKind) = some .leftParen then arguments else pure none
  endStatement .inclusion
  return .inclusion { name, args, position }
where
  arguments : Reading (Option Value) := do
    skip
    let args ← if (← peekKind) = some .rightParen then pure none else some <$> valueList
    let _ ← expect .rightParen .inclusion
    return args

/-! ## Rules with a block

Each of these takes `body`, which reads the block whose brace was just consumed. -/

/-- Goes on with the parameters of a mixin up to the closing parenthesis. -/
def parametersFrom (found : List Parameter) : Nat → Reading (List Parameter)
  | 0 => exhausted .mixin
  | n + 1 => do
    let t ← require .mixin
    match t.kind with
    | .rightParen => return found.reverse
    | .comma => parametersFrom found n
    | .reference =>
      if (← peekKind) = some .colon then
        skip
        let v ← spaceList
        parametersFrom (⟨t.name, some v⟩ :: found) n
      else parametersFrom (⟨t.name, none⟩ :: found) n
    | _ => unexpected .mixin t

def parameters : Reading (List Parameter) := do
  if (← peekKind) = some .leftParen then
    skip
    parametersFrom [] (← room)
  else return []

section Blocks

variable (body : Position → Reading (List Node)) (start : Position)

def mixin : Reading Node := do
  setMode .value
  let name := (← expect .ident .mixin).text
  let params ← parameters
  let _ ← expect .leftBrace .mixin
  return .mixin name params (← body start)

def loop : Reading Node := do
  setMode .value
  let counter := (← expect .reference .forRule).name
  let keyword ← expect .ident .forRule
  if keyword.text ≠ "from" then unexpected .forRule keyword
  let first ← condition
  let keyword ← expect .ident .forRule
  if keyword.text ≠ "through" ∧ keyword.text ≠ "to" then unexpected .forRule keyword
  let last ← condition
  let _ ← expect .leftBrace .forRule
  return .loop counter first last (keyword.text = "through") (← body start)

/-- A rule with a block and no meaning of its own. -/
def blockRule (head : String → Head) : Reading Node := do
  let (text, _) ← prelude true
  return .block (head text) (← body start)

def otherRule (name : String) : Reading Node := do
  let (text, hasBlock) ← prelude false
  if hasBlock then return .block (.atRule name text) (← body start)
  else return .statement name text

end Blocks

/-- Whether the next token is of this kind and has this name, in any letter case. -/
def nameFollows (kind : TokenKind) (name : String) : Reading Bool := do
  return (← peek).any fun t => t.kind = kind && t.name.toLower = name

/-- A condition with its block, and the alternatives after it. -/
def branch (body : Position → Reading (List Node)) (start : Position) : Nat → Reading Node
  | 0 => exhausted .ifRule
  | n + 1 => do
    let test ← condition
    let _ ← expect .leftBrace .ifRule
    let whenTrue ← body start
    if ← nameFollows .atKeyword "else" then
      let t ← expect .atKeyword .elseRule
      setMode .value
      if ← nameFollows .ident "if" then
        skip
        return .branch test whenTrue [← branch body t.position n]
      else
        let _ ← expect .leftBrace .elseRule
        return .branch test whenTrue (← body t.position)
    else return .branch test whenTrue []

def atRule (body : Position → Reading (List Node)) : Reading Node := do
  let t ← expect .atKeyword .atRule
  match t.name.toLower with
  | "import" => importRule
  | "media" => blockRule body t.position .media
  | "font-face" => blockRule body t.position fun _ => .fontFace
  | "keyframes" => blockRule body t.position .keyframes
  | "mixin" => mixin body t.position
  | "include" => inclusion t.position
  | "if" => branch body t.position (← room)
  | "for" => loop body t.position
  | "else" => fail .elseWithoutIf t.position
  | _ => otherRule body t.position t.name

def styleRule (body : Position → Reading (List Node)) (depth : Nat) : Reading Node := do
  setMode .selector
  let start ← here
  let s ← selector
  return .block (.style s depth) (← body start)

/-! ## Blocks and sheets -/

/-- The text of a comment without its marks. -/
def commentText (text : String) : String :=
  Text.trim (String.ofList ((text.toList.drop 2).take (text.length - 4)))

mutual

/-- Goes on with the items of the block at `opening`, or of the sheet if there is none. Items so far
are reversed, and `depth` style rules are open. Comments are kept in the sheet only. -/
def itemsFrom (depth : Nat) (opening : Option Position) (found : List Node) :
    Nat → Reading (List Node)
  | 0 => exhausted .block
  | n + 1 => do
    match ← peek, opening with
    | none, none => return found.reverse
    | none, some start => fail .unclosedBlock start
    | some t, _ =>
      match t.kind, opening with
      | .semicolon, _ =>
        skip
        itemsFrom depth opening found n
      | .rightBrace, none => unexpected .stylesheet t
      | .rightBrace, some _ =>
        skip
        return found.reverse
      | .comment, none =>
        skip
        itemsFrom depth opening (.comment (commentText t.text) :: found) n
      | .comment, some _ =>
        skip
        itemsFrom depth opening found n
      | _, _ =>
        let node ← itemFrom depth opening.isNone t n
        itemsFrom depth opening (node :: found) n

/-- One item, whose first token is `t`. -/
def itemFrom (depth : Nat) (topLevel : Bool) (t : Token) : Nat → Reading Node
  | 0 => exhausted .block
  | n + 1 =>
    let body (depth : Nat) (start : Position) : Reading (List Node) := do
      setMode .block
      itemsFrom depth (some start) [] n
    match t.kind with
    | .atKeyword => atRule (body depth)
    | .reference => assignment
    | _ =>
      match itemEnd t.source with
      | some '\x7b' => styleRule (body (depth + 1)) (depth + 1)
      | some _ =>
        if topLevel then fail .declarationOutsideRule t.position else declaration t.position
      | none =>
        -- A bracket or a string is not closed, and reading the item reports it.
        if topLevel then styleRule (body (depth + 1)) (depth + 1) else declaration t.position

end

end Reading

/-- Reads a whole text as a sheet. -/
def Sheet.read (source : String) : Except SyntaxError Sheet :=
  let reader := Reader.ofSource source
  match (Reading.itemsFrom 0 none [] reader.room).run reader with
  | .ok (nodes, _) => .ok ⟨nodes⟩
  | .error e => .error (e.withSource source)

end Stylesheet
