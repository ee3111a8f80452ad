import Stylesheet.Text.Blank
import Stylesheet.Text.Split
import Stylesheet.Value.Printer

/-!
# Selectors

A selector lists alternatives; an alternative is a run of pieces. Descendants stand apart by one
space, and no alternative is empty or has a space at its ends.

* `Piece`, `Alternative`, `Selector`.
* `Selector.ofAlternatives`: brings any alternatives into that form.
* `Selector.ofText`: a selector written as plain text.
-/

namespace Stylesheet

inductive Piece where
  | word (text : String)
  /-- The descendant combinator. -/
  | space
  /-- The parent reference `&`. -/
  | parent
  | value (v : Value)

namespace Piece

instance : Inhabited Piece := ⟨.space⟩

def isSpace : Piece → Bool
  | space => true
  | _ => false

def isParent : Piece → Bool
  | parent => true
  | _ => false

def text : Piece → String
  | word s => s
  | space => " "
  | parent => "&"
  | value v => interpolationText v.text

end Piece

/-- One of the comma separated parts of a selector. -/
abbrev Alternative := List Piece

namespace Alternative

/-- Keeps the first of several spaces in a row; `afterSpace` says that one came before. -/
def squeeze : Bool → Alternative → Alternative
  | _, [] => []
  | afterSpace, .space :: rest =>
    if afterSpace then squeeze true rest else .space :: squeeze true rest
  | _, piece :: rest => piece :: squeeze false rest

/-- Drops the spaces at the end. -/
def trimEnd (alt : Alternative) : Alternative := (alt.reverse.dropWhile Piece.isSpace).reverse

/-- No space at either end, and never two in a row. -/
def normalize (alt : Alternative) : Alternative := trimEnd (squeeze true alt)

def hasParent (alt : Alternative) : Bool := alt.any Piece.isParent

def text (alt : Alternative) : String := String.join (alt.map Piece.text)

end Alternative

structure Selector where
  alternatives : List Alternative := []

namespace Selector

instance : Inhabited Selector := ⟨{}⟩

/-- A selector of normalized alternatives, without the empty ones. -/
def ofAlternatives (alts : List Alternative) : Selector :=
  ⟨(alts.map Alternative.normalize).filter fun alt => !alt.isEmpty⟩

/-- A word cut at its parent references. -/
def wordPieces (word : List Char) : Alternative :=
  [Piece.parent].intercalate ((Text.splitOn '&' word).map fun part =>
    if part.isEmpty then [] else [.word (String.ofList part)])

/-- The words of a plain alternative, one space between them. -/
def plainAlternative (text : List Char) : Alternative :=
  [Piece.space].intercalate ((Text.words text).map wordPieces)

/-- A selector written as plain text. -/
def ofText (text : String) : Selector :=
  ofAlternatives ((Text.splitOn ',' text.toList).map plainAlternative)

def isEmpty (s : Selector) : Bool := s.alternatives.isEmpty

def size (s : Selector) : Nat := s.alternatives.length

def hasParent (s : Selector) : Bool := s.alternatives.any Alternative.hasParent

def text (s : Selector) : String := ", ".intercalate (s.alternatives.map Alternative.text)

/-- The selector with its interpolated values replaced, from left to right. -/
def mapValuesM {m : Type → Type} [Monad m] (f : Value → m Value) (s : Selector) : m Selector := do
  let alts ← s.alternatives.mapM fun alt => alt.mapM fun
    | .value v => do return Piece.value (← f v)
    | piece => pure piece
  return ⟨alts⟩

def mapValues (f : Value → Value) (s : Selector) : Selector :=
  ⟨s.alternatives.map fun alt => alt.map fun
    | .value v => .value (f v)
    | piece => piece⟩

end Selector

end Stylesheet
