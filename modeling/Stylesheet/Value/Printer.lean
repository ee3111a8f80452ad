import Stylesheet.Number.Decimal
import Stylesheet.Value.Basic

/-!
# Text of values

* `Quantity.text`: a whole number below `10 ^ 15` is written as an integer, any other number rounded
  to six places and with the fewest digits; then the unit.
* `Value.text`: a tree as it could be read again. Parts of a joined value that are neither numbers
  nor literals are written as interpolations.
* `Value.css`: a tree as it is written to a stylesheet, without interpolation marks.
-/

namespace Stylesheet

/-! ## Numbers -/

namespace Quantity

/-- The places after the point, as a power of ten. -/
def places : Float := 1000000

/-- A whole number below `10 ^ 15` as an integer. -/
def wholeText? (x : Float) : Option String :=
  match Binary.unpack x with
  | .finite negative m e =>
    let num := m <<< e.toNat
    let den := 1 <<< (-e).toNat
    if num % den = 0 ∧ num / den < Decimal.power 15 then
      some (Decimal.textInt (if negative then -(num / den : Int) else num / den))
    else none
  | _ => none

def numberText (x : Float) : String :=
  (wholeText? x).getD (Decimal.ofDouble (Binary.round (x * places) / places))

def text (q : Quantity) : String := numberText q.number ++ q.unit

end Quantity

def Separator.text : Separator → String
  | space => " "
  | comma => ", "

/-! ## Trees -/

/-- Text within the marks of an interpolation. -/
def interpolationText (inner : String) : String := "#\x7b" ++ inner ++ "\x7d"

namespace Value

mutual

/-- The text of a tree. -/
def text : Value → String
  | .quantity q => q.text
  | .literal s => s
  | .list items separator => separator.text.intercalate (texts items)
  | .call name args => name ++ "(" ++ text args ++ ")"
  | .reference name => "$" ++ name
  | .binary left op right => text left ++ " " ++ op.text ++ " " ++ text right
  | .joined parts => String.join (partTexts parts)
  | .boolean truth => if truth then "true" else "false"
  | .undefined name => "/* $" ++ name ++ " not found */"

def texts : List Value → List String
  | [] => []
  | v :: vs => text v :: texts vs

/-- The texts of the parts of a joined value. -/
def partTexts : List Value → List String
  | [] => []
  | .literal s :: vs => s :: partTexts vs
  | .quantity q :: vs => q.text :: partTexts vs
  | v :: vs => interpolationText (text v) :: partTexts vs

end

mutual

/-- A tree as it is written to a stylesheet. -/
def css : Value → String
  | .list items separator => separator.text.intercalate (cssTexts items)
  | .call name args => name ++ "(" ++ css args ++ ")"
  | .joined parts => String.join (cssTexts parts)
  | v => text v

def cssTexts : List Value → List String
  | [] => []
  | v :: vs => css v :: cssTexts vs

end

end Value

end Stylesheet
