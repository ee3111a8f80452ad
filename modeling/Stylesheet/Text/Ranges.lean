import Stylesheet.Number.Hexadecimal
import Stylesheet.Text.Blank
import Stylesheet.Text.Split

/-!
# Ranges of characters

Properties of characters are given as tables of hexadecimal codes: `41-5A 61-7A AA` is a set of
characters, `E6:300-314,33D DC:316` gives each set a number of its own, and `41-5A=61 132=69.6A`
gives characters the texts that they stand for.

* `Ranges.ofText`, `Ranges.contains`: sets.
* `Ranges.table`, `Ranges.find?`: numbers with their sets.
* `Replacement.table`, `Replacement.find?`: characters with their texts.
-/

namespace Stylesheet

/-- A set of characters, as intervals of codes. -/
structure Ranges where
  intervals : List (Nat × Nat)
  deriving DecidableEq

namespace Ranges

def contains (ranges : Ranges) (c : Char) : Bool :=
  ranges.intervals.any fun r => r.1 ≤ c.toNat && c.toNat ≤ r.2

/-- A hexadecimal number; other characters count as zeros. -/
def code (digits : List Char) : Nat :=
  digits.foldl (fun n c => 16 * n + (Hexadecimal.value? c).getD 0) 0

/-- The first and the last code of an interval; a single code is both. -/
def interval (text : List Char) : Nat × Nat :=
  match Text.splitOn '-' text with
  | [low, high] => (code low, code high)
  | _ => (code text, code text)

def ofText (text : String) : Ranges := ⟨(Text.words text.toList).map interval⟩

/-- A number and the set of characters that it is given to. -/
def row (text : List Char) : Nat × Ranges :=
  match Text.splitOn ':' text with
  | [key, set] => (code key, ⟨(Text.splitOn ',' set).map interval⟩)
  | _ => (0, ⟨[]⟩)

/-- Numbers, each with the set of characters that it is given to. -/
def table (text : String) : List (Nat × Ranges) := (Text.words text.toList).map row

/-- The number that a table gives to a character. -/
def find? (rows : List (Nat × Ranges)) (c : Char) : Option Nat :=
  (rows.find? fun row => row.2.contains c).map Prod.fst

end Ranges

/-- Characters that stand for a text. Of an interval of codes, the first stands for the given
character, and the others for those that follow it. -/
structure Replacement where
  first : Nat
  last : Nat
  text : List Char
  deriving DecidableEq

namespace Replacement

/-- What a character of the interval stands for. -/
def apply (r : Replacement) (c : Char) : List Char :=
  match r.text with
  | [d] => [Char.ofNat (d.toNat + (c.toNat - r.first))]
  | text => text

def row (text : List Char) : Replacement :=
  match Text.splitOn '=' text with
  | [codes, target] =>
    let (first, last) := Ranges.interval codes
    ⟨first, last, (Text.splitOn '.' target).map fun digits => Char.ofNat (Ranges.code digits)⟩
  | _ => ⟨0, 0, []⟩

def table (text : String) : List Replacement := (Text.words text.toList).map row

/-- What a table lets a character stand for. -/
def find? (rows : List Replacement) (c : Char) : Option (List Char) :=
  (rows.find? fun r => r.first ≤ c.toNat && c.toNat ≤ r.last).map fun r => r.apply c

end Replacement

end Stylesheet
