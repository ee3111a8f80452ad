import Stylesheet.Token.Lexer

/-!
# Reading tokens

A reader is a lexer with at most one token read ahead. Changing the mode gives that token back, so
that it is read again in the new mode.

* `Reading`: what reads from a reader or fails with a diagnostic.
* `peek`, `next`, `expect`, `setMode`, `here`.
* `room`: how many steps nested reading may take, from the length of the source.
-/

namespace Stylesheet

structure Reader where
  lexer : Lexer
  /-- The token read ahead. -/
  ahead : Option Token := none
  /-- More than the steps that reading the source can take. -/
  room : Nat

/-- Reads from a reader, or fails. -/
abbrev Reading := StateT Reader (Except SyntaxError)

namespace Reader

/-- Every token that is read allows a bounded number of steps before the next one. -/
def stepsPerToken : Nat := 8

def ofSource (source : String) : Reader :=
  { lexer := .ofSource source, room := stepsPerToken * (source.length + 1) }

end Reader

namespace Reading

def fail {α : Type} (fault : SyntaxFault) (position : Position) : Reading α :=
  throw { fault, position }

/-- The next token, which stays to be read. -/
def peek : Reading (Option Token) := fun r =>
  match r.ahead with
  | some t => .ok (some t, r)
  | none =>
    match r.lexer.next with
    | (.error e, _) => .error e
    | (.ok t, l) => .ok (t, { r with lexer := l, ahead := t })

def peekKind : Reading (Option TokenKind) := do return (← peek).map Token.kind

/-- The next token. -/
def next : Reading (Option Token) := fun r =>
  match r.ahead with
  | some t => .ok (some t, { r with ahead := none })
  | none =>
    match r.lexer.next with
    | (.error e, _) => .error e
    | (.ok t, l) => .ok (t, { r with lexer := l })

/-- The place after everything that was read, a token read ahead included. -/
def here : Reading Position := do return (← get).lexer.position

/-- How many steps nested reading may take. -/
def room : Reading Nat := do return (← get).room

def setMode (mode : LexicalMode) : Reading Unit :=
  modify fun r =>
    let lexer := match r.ahead with
      | some t => r.lexer.rewind t
      | none => r.lexer
    { r with lexer := lexer.setMode mode, ahead := none }

/-- Gives back a token that was read. -/
def giveBack (t : Token) : Reading Unit :=
  modify fun r => { r with lexer := r.lexer.rewind t }

def unexpected {α : Type} (reading : Construct) (t : Token) : Reading α :=
  fail (.unexpectedToken reading t.text) t.position

def unexpectedEnd {α : Type} (reading : Construct) : Reading α := do
  fail (.unexpectedEnd reading) (← here)

/-- No step is left. Reading with the room of its source never comes to this, and the error that it
would give stands at no place of the text. -/
def exhausted {α : Type} (reading : Construct) : Reading α :=
  fail (.unexpectedEnd reading) .unknown

/-- The next token; the text must not end here. -/
def require (reading : Construct) : Reading Token := do
  match ← next with
  | some t => pure t
  | none => unexpectedEnd reading

/-- The next token, which must be of the given kind. -/
def expect (kind : TokenKind) (reading : Construct) : Reading Token := do
  let t ← require reading
  if t.kind = kind then pure t else unexpected reading t

/-- Passes over a token that was peeked at. -/
def skip : Reading Unit := do
  let _ ← next

/-- Ends a statement. A closing brace is left to the block around it, and so is the end of the
text. -/
def endStatement (reading : Construct) : Reading Unit := do
  match ← peek with
  | none => pure ()
  | some t =>
    if t.kind = .semicolon then skip
    else if t.kind = .rightBrace then pure ()
    else unexpected reading t
  setMode .block

end Reading

end Stylesheet
