/-!
# Lines of a text

A line ends before a newline, or before a carriage return and a newline; the last line needs no
end, and nothing after the last newline is no line.

* `lines`: the lines of a text.
* `SourceLine.around`: the lines quoted with a diagnostic, the failing one last.
-/

namespace Stylesheet

namespace Text

/-- The text of a line whose characters stand reversed in `line`, before a newline. -/
def endedLine : List Char → List Char
  | '\r' :: line => line.reverse
  | line => line.reverse

/-- Splits into lines, with the current line reversed in `line`. -/
def linesFrom (line : List Char) : List Char → List (List Char)
  | [] => if line.isEmpty then [] else [line.reverse]
  | '\n' :: cs => endedLine line :: linesFrom [] cs
  | c :: cs => linesFrom (c :: line) cs

def lines (text : List Char) : List (List Char) := linesFrom [] text

end Text

/-- A numbered line of a source text. -/
structure SourceLine where
  number : Nat
  text : String
  deriving DecidableEq, Inhabited

namespace SourceLine

/-- How many lines are quoted before the failing one. -/
def leadingLines : Nat := 3

/-- The line of the given number and the few lines before it. -/
def around (source : String) (line : Nat) : List SourceLine :=
  if line = 0 then []
  else
    ((Text.lines source.toList).zipIdx 1).filterMap fun (text, number) =>
      if max 1 (line - leadingLines) ≤ number ∧ number ≤ line then
        some ⟨number, String.ofList text⟩
      else none

end SourceLine

end Stylesheet
