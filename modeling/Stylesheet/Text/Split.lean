/-!
# Splitting at a character

* `splitOn`: the runs between the occurrences of a character, at least one.
-/

namespace Stylesheet.Text

/-- Splits, with the current run reversed in `run`. -/
def splitFrom (sep : Char) (run : List Char) : List Char → List (List Char)
  | [] => [run.reverse]
  | c :: cs => if c = sep then run.reverse :: splitFrom sep [] cs else splitFrom sep (c :: run) cs

/-- The runs between the occurrences of a character; a text without it is one run. -/
def splitOn (sep : Char) (text : List Char) : List (List Char) := splitFrom sep [] text

theorem splitFrom_ne_nil (sep : Char) (run text : List Char) : splitFrom sep run text ≠ [] := by
  induction text generalizing run with
  | nil => simp [splitFrom]
  | cons c cs ih =>
    by_cases h : c = sep
    · simp [splitFrom, h]
    · simpa [splitFrom, h] using ih (c :: run)

end Stylesheet.Text
