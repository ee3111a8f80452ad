import Stylesheet.Error
import Stylesheet.Number.Decimal
import Stylesheet.Text.Blank
import Stylesheet.Token.Basic

/-!
# Lexemes

How far a token reaches. Each function here looks at a text and counts the characters that belong
together; none of them builds a token or knows a position.

* `nameLength`, `numberLength`: runs that cannot fail.
* `stringEnd`, `bracketEnd`, `urlEnd`, `commentEnd`: runs that need an end.
* `gapLength`: white space and comments between tokens.
* `selectorLexeme`, `valueLexeme`: kind and length of the next token.
-/

namespace Stylesheet.Lexeme

/-- A lexeme without an end: `start` characters stand before what lacks it, and `stop` characters
were read when that was seen. -/
structure Unfinished where
  fault : SyntaxFault
  start : Nat
  stop : Nat

/-- A count of characters, or the reason why there is none. -/
abbrev Scan := Except Unfinished Nat

/-! ## Characters -/

def isLetter (c : Char) : Bool := ('a' ≤ c && c ≤ 'z') || ('A' ≤ c && c ≤ 'Z')

def isAscii (c : Char) : Bool := c.toNat < 0x80

def isIdentStart (c : Char) : Bool := isLetter c || c == '_' || c == '\\' || !isAscii c

def isNameChar (c : Char) : Bool :=
  isLetter c || Decimal.isDigit c || c == '-' || c == '_' || !isAscii c

def isQuote (c : Char) : Bool := c == '"' || c == '\''

/-! ## Runs without an end of their own -/

/-- The name characters at the head of a text, on top of `n`. A backslash takes the next character
with it. -/
def nameLength (n : Nat) : List Char → Nat
  | [] => n
  | ['\\'] => n + 1
  | '\\' :: _ :: cs => nameLength (n + 2) cs
  | c :: cs => if isNameChar c then nameLength (n + 1) cs else n

/-- The digits at the head of a text. -/
def digitsLength (cs : List Char) : Nat := (cs.takeWhile Decimal.isDigit).length

/-- A point counts only with a digit after it. -/
def fractionLength : List Char → Nat
  | '.' :: cs => if digitsLength cs = 0 then 0 else 1 + digitsLength cs
  | _ => 0

/-- Digits, then a fraction. -/
def numberLength (cs : List Char) : Nat :=
  digitsLength cs + fractionLength (cs.drop (digitsLength cs))

def startsNumber (cs : List Char) : Bool := numberLength cs != 0

/-- A percent sign or a name. -/
def unitLength (cs : List Char) : Nat := if cs.head? = some '%' then 1 else nameLength 0 cs

/-- Whether a unit follows a number directly. -/
def startsUnit : List Char → Bool
  | c :: _ => c == '%' || isLetter c
  | [] => false

/-! ## Runs with an end -/

/-- Reads on to the quote that ends a string; the string started at `start`. -/
def stringEnd (quote : Char) (start n : Nat) : List Char → Scan
  | [] => .error ⟨.unterminatedString, start, n⟩
  | '\n' :: _ => .error ⟨.unterminatedString, start, n⟩
  | ['\\'] => .error ⟨.unterminatedString, start, n + 1⟩
  | '\\' :: _ :: cs => stringEnd quote start (n + 2) cs
  | c :: cs => if c = quote then .ok (n + 1) else stringEnd quote start (n + 1) cs

/-- Reads on to the bracket that closes `depth` open ones, skipping strings. -/
def bracketEnd (opening closing : Char) (start depth n : Nat) : List Char → Scan
  | [] => .error ⟨.unbalanced opening, start, n⟩
  | c :: cs =>
    if isQuote c then
      match stringEnd c n (n + 1) cs with
      | .error e => .error e
      | .ok m => bracketEnd opening closing start depth m (cs.drop (m - (n + 1)))
    else if c = opening then bracketEnd opening closing start (depth + 1) (n + 1) cs
    else if c = closing then
      if depth ≤ 1 then .ok (n + 1) else bracketEnd opening closing start (depth - 1) (n + 1) cs
    else bracketEnd opening closing start depth (n + 1) cs
termination_by cs => cs.length
decreasing_by all_goals simp; try omega

/-- Reads on to the end of a url, skipping strings. -/
def urlEnd (start n : Nat) : List Char → Scan
  | [] => .error ⟨.unterminatedUrl, start, n⟩
  | c :: cs =>
    if isQuote c then
      match stringEnd c n (n + 1) cs with
      | .error e => .error e
      | .ok m => urlEnd start m (cs.drop (m - (n + 1)))
    else if c = ')' then .ok (n + 1)
    else urlEnd start (n + 1) cs
termination_by cs => cs.length
decreasing_by all_goals simp; try omega

/-- Reads on to the end of a comment. -/
def commentEnd (n : Nat) : List Char → Option Nat
  | [] => none
  | '*' :: '/' :: _ => some (n + 2)
  | _ :: cs => commentEnd (n + 1) cs

/-! ## Gaps -/

/-- The characters before the next newline. -/
def lineLength (cs : List Char) : Nat := (cs.takeWhile (· != '\n')).length

/-- White space and line comments, and block comments too if `comments` says so. -/
def gapLength (comments : Bool) (n : Nat) : List Char → Scan
  | [] => .ok n
  | c :: cs =>
    if Text.isBlank c then gapLength comments (n + 1) cs
    else if c = '/' ∧ cs.head? = some '/' then
      gapLength comments (n + 1 + lineLength cs) (cs.drop (lineLength cs))
    else if comments ∧ c = '/' ∧ cs.head? = some '*' then
      match commentEnd (n + 2) (cs.drop 1) with
      | none => .error ⟨.unterminatedComment, n, n + 1 + cs.length⟩
      | some m => gapLength comments m (cs.drop (m - (n + 1)))
    else .ok n
termination_by cs => cs.length
decreasing_by all_goals simp; try omega

/-! ## Selectors -/

/-- Whether selector text ends before `c`. -/
def endsSelectorText (c : Char) (cs : List Char) : Bool :=
  Text.isBlank c || isQuote c || [',', '&', '\x7b', '\x7d', ';'].contains c ||
    (c == '#' && cs.head? == some '\x7b') ||
    (c == '/' && (cs.head? == some '*' || cs.head? == some '/'))

/-- The selector text at the head of a text; brackets are kept whole. -/
def selectorTextEnd (n : Nat) : List Char → Scan
  | [] => .ok n
  | c :: cs =>
    if endsSelectorText c cs then .ok n
    else if c = '(' ∨ c = '[' then
      match bracketEnd c (if c = '(' then ')' else ']') n 1 (n + 1) cs with
      | .error e => .error e
      | .ok m => selectorTextEnd m (cs.drop (m - (n + 1)))
    else if c = ')' ∨ c = ']' then .error ⟨.strayClosing c, n, n⟩
    else selectorTextEnd (n + 1) cs
termination_by cs => cs.length
decreasing_by all_goals simp; try omega

/-- The next token of a selector. -/
def selectorLexeme (c : Char) (cs : List Char) : Except Unfinished (TokenKind × Nat) :=
  if c = ',' then .ok (.comma, 1)
  else if c = '&' then .ok (.ampersand, 1)
  else if c = '\x7b' then .ok (.leftBrace, 1)
  else if c = '\x7d' then .ok (.rightBrace, 1)
  else if c = ';' then .ok (.semicolon, 1)
  else if isQuote c then (stringEnd c 0 1 cs).map (.str, ·)
  else if c = '#' ∧ cs.head? = some '\x7b' then .ok (.interpolation, 2)
  else (selectorTextEnd 0 (c :: cs)).map (.text, ·)

/-! ## Values -/

/-- The tokens of two characters. -/
def pair? (c d : Char) : Option TokenKind :=
  match c, d with
  | '#', '\x7b' => some .interpolation
  | '=', '=' => some .equals
  | '!', '=' => some .notEquals
  | '>', '=' => some .greaterEqual
  | '<', '=' => some .lessEqual
  | _, _ => none

/-- The tokens of one character. -/
def single : Char → TokenKind
  | '&' => .ampersand
  | '>' => .greater
  | '<' => .less
  | '+' => .plus
  | '-' => .minus
  | '*' => .star
  | '/' => .slash
  | '%' => .percent
  | ':' => .colon
  | ';' => .semicolon
  | ',' => .comma
  | '\x7b' => .leftBrace
  | '\x7d' => .rightBrace
  | '(' => .leftParen
  | ')' => .rightParen
  | _ => .delim

/-- An identifier, or a whole url. -/
def identLexeme (cs : List Char) : Except Unfinished (TokenKind × Nat) :=
  let n := nameLength 0 cs
  let rest := cs.drop n
  if (cs.take n).map Char.toLower = ['u', 'r', 'l'] ∧ rest.head? = some '(' then
    (urlEnd n (n + 1) (rest.drop 1)).map (.url, ·)
  else .ok (.ident, n)

/-- The next token of a block or of a value. A minus may be a sign only if `signed` says so. -/
def valueLexeme (signed : Bool) (c : Char) (cs : List Char) :
    Except Unfinished (TokenKind × Nat) :=
  if c = '/' ∧ cs.head? = some '*' then
    match commentEnd 2 (cs.drop 1) with
    | none => .error ⟨.unterminatedComment, 0, 1 + cs.length⟩
    | some n => .ok (.comment, n)
  else if isQuote c then (stringEnd c 0 1 cs).map (.str, ·)
  else if c = '$' ∨ c = '@' then
    if nameLength 0 cs = 0 then .ok (.delim, 1)
    else .ok (if c = '$' then .reference else .atKeyword, nameLength 1 cs)
  else if startsNumber (c :: cs) then .ok (.number, numberLength (c :: cs))
  else if let some kind := cs.head?.bind (pair? c) then .ok (kind, 2)
  else if c = '#' then .ok (.hash, nameLength 1 cs)
  else if c = '-' ∧ cs.head?.any (fun d => isIdentStart d || d == '-') then
    .ok (.ident, nameLength 1 cs)
  else if c = '-' ∧ startsNumber cs ∧ signed then .ok (.number, 1 + numberLength cs)
  else if c = '[' then (bracketEnd '[' ']' 0 1 1 cs).map (.text, ·)
  else if c = '!' ∧ cs.head?.any isIdentStart then .ok (.ident, nameLength 1 cs)
  else if isIdentStart c then identLexeme (c :: cs)
  else .ok (single c, 1)

end Stylesheet.Lexeme
