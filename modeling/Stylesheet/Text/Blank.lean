/-!
# White space

The characters with the Unicode property White_Space, and what is cut off or split at them.

* `isBlank`: the property, as a table of ranges.
* `trim`, `trimEnd`: a text without the white space around it, or at its end.
* `words`: the maximal runs of other characters.
-/

namespace Stylesheet.Text

/-- Whether a character has the Unicode property White_Space. -/
def isBlank (c : Char) : Bool :=
  let n := c.toNat
  (0x09 ≤ n && n ≤ 0x0d) || n == 0x20 || n == 0x85 || n == 0xa0 || n == 0x1680 ||
    (0x2000 ≤ n && n ≤ 0x200a) || n == 0x2028 || n == 0x2029 || n == 0x202f || n == 0x205f ||
    n == 0x3000

/-! ## Trimming -/

def trimStartChars (cs : List Char) : List Char := cs.dropWhile isBlank

def trimEndChars (cs : List Char) : List Char := (cs.reverse.dropWhile isBlank).reverse

/-- A text without the white space before and after it. -/
def trim (s : String) : String := String.ofList (trimEndChars (trimStartChars s.toList))

/-- A text without the white space after it. -/
def trimEnd (s : String) : String := String.ofList (trimEndChars s.toList)

/-! ## Words -/

/-- Splits at white space, with the current word reversed in `word`. -/
def wordsFrom (word : List Char) : List Char → List (List Char)
  | [] => if word.isEmpty then [] else [word.reverse]
  | c :: cs =>
    if isBlank c then
      if word.isEmpty then wordsFrom [] cs else word.reverse :: wordsFrom [] cs
    else wordsFrom (c :: word) cs

/-- The maximal runs of characters that are not white space. -/
def words (cs : List Char) : List (List Char) := wordsFrom [] cs

end Stylesheet.Text
