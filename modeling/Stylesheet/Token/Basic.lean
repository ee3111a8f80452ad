import Stylesheet.Text.Position

/-!
# Tokens

The pieces that a text is read in. White space is never a token; each token records whether some
came before it.

* `LexicalMode`: the same characters are cut differently in a selector, a block and a value.
* `TokenKind`, `Token`.
-/

namespace Stylesheet

/-- What is being read. -/
inductive LexicalMode where
  | selector
  | block
  | value
  deriving DecidableEq

inductive TokenKind where
  | comment
  | ident
  | number
  /-- A unit glued to the number before it. -/
  | unit
  | hash
  | str
  /-- A variable with its sign. -/
  | reference
  | atKeyword
  | url
  | interpolation
  | ampersand
  /-- A run of selector text, or a bracketed run in a value. -/
  | text
  | colon
  | semicolon
  | comma
  | leftBrace
  | rightBrace
  | leftParen
  | rightParen
  | plus
  | minus
  | star
  | slash
  | percent
  | equals
  | notEquals
  | greater
  | greaterEqual
  | less
  | lessEqual
  | delim
  deriving DecidableEq

/-- Whether a minus glued to such a token is an operator rather than a sign. -/
def TokenKind.isOperand : TokenKind → Bool
  | number | unit | ident | reference | rightParen | rightBrace | str | hash => true
  | _ => false

structure Token where
  kind : TokenKind
  text : String
  position : Position
  /-- The number of bytes before the token. -/
  offset : Nat
  spaceBefore : Bool
  /-- The kind of the token before. -/
  previous : Option TokenKind
  /-- The source from the first character of the token on. -/
  source : List Char
  deriving DecidableEq

/-- The text without its sign, for variables and at-keywords. -/
def Token.name (t : Token) : String :=
  match t.kind with
  | .reference | .atKeyword => String.ofList (t.text.toList.drop 1)
  | _ => t.text

end Stylesheet
