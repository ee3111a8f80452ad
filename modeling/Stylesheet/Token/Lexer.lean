import Stylesheet.Token.Lexeme

/-!
# The lexer

A lexer stands at a place in a text and gives one token after another. The mode may change between
two tokens, and the lexer can go back to a token to read it again in another mode.

* `Lexer.next`: the next token, the end, or an error; the lexer stops where the error was seen.
* `Lexer.setMode`, `Lexer.rewind`.
* `itemEnd`: looks ahead for what ends the item at the head of a text.
-/

namespace Stylesheet

structure Lexer where
  /-- What is still to be read. -/
  rest : List Char
  /-- The number of bytes read. -/
  offset : Nat := 0
  position : Position := .start
  mode : LexicalMode := .block
  /-- The kind of the last token. -/
  last : Option TokenKind := none
  /-- Whether the unit of the last number comes next. -/
  unitDue : Bool := false
  /-- Whether the next token counts as preceded by white space. -/
  spaceDue : Bool := false

namespace Lexer

open Lexeme

def ofSource (source : String) : Lexer := { rest := source.toList }

def setMode (l : Lexer) (mode : LexicalMode) : Lexer := { l with mode := mode }

/-- The bytes that a text takes. -/
def byteLength (text : List Char) : Nat := text.foldr (fun c n => c.utf8Size + n) 0

/-- Moves over `n` characters. -/
def skip (l : Lexer) (n : Nat) : Lexer :=
  let text := l.rest.take n
  { l with
    rest := l.rest.drop n
    offset := l.offset + byteLength text
    position := l.position.advance text }

/-- Takes `n` characters as a token. -/
def emit (l : Lexer) (kind : TokenKind) (n : Nat) (spaceBefore : Bool) : Token × Lexer :=
  let after := l.skip n
  (⟨kind, String.ofList (l.rest.take n), l.position, l.offset, spaceBefore, l.last, l.rest⟩,
    { after with last := some kind, unitDue := kind == .number && startsUnit after.rest })

/-- Stops at an unfinished lexeme. -/
def fail (l : Lexer) (e : Unfinished) : Except SyntaxError (Option Token) × Lexer :=
  (.error ⟨e.fault, l.position.advance (l.rest.take e.start), []⟩,
    { l.skip e.stop with spaceDue := false })

/-- Kind and length of the token at the head of what is left. -/
def lexeme (l : Lexer) (spaceBefore : Bool) (c : Char) (cs : List Char) :
    Except Unfinished (TokenKind × Nat) :=
  match l.mode with
  | .selector => selectorLexeme c cs
  | .block | .value => valueLexeme (spaceBefore || !l.last.any TokenKind.isOperand) c cs

/-- The next token, or nothing at the end of the text. -/
def next (l : Lexer) : Except SyntaxError (Option Token) × Lexer :=
  if l.unitDue then
    let (token, l) := l.emit .unit (unitLength l.rest) false
    (.ok (some token), l)
  else
    match gapLength (l.mode != .block) 0 l.rest with
    | .error e => l.fail e
    | .ok gap =>
      let start := { l.skip gap with spaceDue := false }
      let spaceBefore := l.spaceDue || gap != 0
      match start.rest with
      | [] => (.ok none, start)
      | c :: cs =>
        match start.lexeme spaceBefore c cs with
        | .error e => start.fail e
        | .ok (kind, n) =>
          let (token, l) := start.emit kind n spaceBefore
          (.ok (some token), l)

/-- Goes back to a token, so that it is read again. -/
def rewind (l : Lexer) (t : Token) : Lexer :=
  { l with
    rest := t.source
    offset := t.offset
    position := t.position
    last := t.previous
    unitDue := false
    spaceDue := t.spaceBefore }

end Lexer

/-! ## Looking ahead -/

mutual

/-- The first semicolon or brace outside of `parens` open brackets, `holes` open interpolations,
strings and comments. -/
def itemEndFrom (parens holes : Nat) : List Char → Option Char
  | [] => none
  | '"' :: cs => itemEndInString '"' parens holes cs
  | '\'' :: cs => itemEndInString '\'' parens holes cs
  | '/' :: '*' :: cs => itemEndInComment parens holes cs
  | '#' :: '\x7b' :: cs => itemEndFrom parens (holes + 1) cs
  | c :: cs =>
    if c = '(' ∨ c = '[' then itemEndFrom (parens + 1) holes cs
    else if c = ')' ∨ c = ']' then itemEndFrom (parens - 1) holes cs
    else if c = '\x7d' ∧ 0 < holes then itemEndFrom parens (holes - 1) cs
    else if (c = ';' ∨ c = '\x7b' ∨ c = '\x7d') ∧ parens = 0 then some c
    else itemEndFrom parens holes cs

/-- Goes on after a string; a newline ends it too. -/
def itemEndInString (quote : Char) (parens holes : Nat) : List Char → Option Char
  | [] => none
  | ['\\'] => none
  | '\\' :: _ :: cs => itemEndInString quote parens holes cs
  | c :: cs =>
    if c = quote ∨ c = '\n' then itemEndFrom parens holes cs
    else itemEndInString quote parens holes cs

/-- Goes on after a comment. -/
def itemEndInComment (parens holes : Nat) : List Char → Option Char
  | [] => none
  | '*' :: '/' :: cs => itemEndFrom parens holes cs
  | _ :: cs => itemEndInComment parens holes cs

end

/-- The character that ends the item at the head of a text: a semicolon or a closing brace after a
declaration, an opening brace after a selector. -/
def itemEnd (text : List Char) : Option Char := itemEndFrom 0 0 text

/-- The text after the given number of bytes; a character that begins before them is left out. -/
def afterBytes : Nat → List Char → List Char
  | 0, cs => cs
  | _, [] => []
  | n + 1, c :: cs => afterBytes (n + 1 - c.utf8Size) cs

end Stylesheet
