/-!
# Positions in a text

A position is a line and a column, both counted from one; columns count characters.

* `Position.advance`: the position after reading some text.
* `Position.text`: how a position is written in a message.
-/

namespace Stylesheet

/-- A line and a column. The position `0:0` stands for no position at all. -/
structure Position where
  line : Nat
  column : Nat
  deriving DecidableEq, Inhabited

namespace Position

/-- The first character of a text. -/
def start : Position := ⟨1, 1⟩

/-- No position. -/
def unknown : Position := ⟨0, 0⟩

/-- The position after one character. -/
def next (p : Position) (c : Char) : Position :=
  if c = '\n' then ⟨p.line + 1, 1⟩ else ⟨p.line, p.column + 1⟩

/-- The position after a text. -/
def advance (p : Position) (text : List Char) : Position := text.foldl next p

@[simp] theorem advance_nil (p : Position) : p.advance [] = p := rfl

@[simp] theorem advance_cons (p : Position) (c : Char) (cs : List Char) :
    p.advance (c :: cs) = (p.next c).advance cs := rfl

theorem advance_append (p : Position) (a b : List Char) :
    p.advance (a ++ b) = (p.advance a).advance b := by
  simp [advance, List.foldl_append]

/-- A position as written in messages. -/
def text (p : Position) : String :=
  if p = unknown then "<unknown>" else s!"{p.line}:{p.column}"

end Position

end Stylesheet
