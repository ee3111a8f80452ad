import Stylesheet.Color.Names
import Stylesheet.Number.Decimal
import Stylesheet.Number.Hexadecimal
import Stylesheet.Text.Blank
import Stylesheet.Value.Printer

/-!
# Colours

A colour has four parts of eight bits.

* `Color.ofText?`: reads hexadecimal colours, `rgb()` and `rgba()` calls, and names.
* `Color.text`: six hexadecimal digits, or an `rgba()` call if the colour is not opaque.
-/

namespace Stylesheet

structure Color where
  red : Nat
  green : Nat
  blue : Nat
  alpha : Nat := 255
  deriving DecidableEq

namespace Color

/-! ## Reading -/

/-- Three, four, six or eight hexadecimal digits; the last of four or eight are alpha. -/
def ofDigits? (chars : List Char) : Option Color := do
  match ← chars.mapM Hexadecimal.value? with
  | [r, g, b] => return ⟨r * 17, g * 17, b * 17, 255⟩
  | [r, g, b, a] => return ⟨r * 17, g * 17, b * 17, a * 17⟩
  | [r, r', g, g', b, b'] => return ⟨r * 16 + r', g * 16 + g', b * 16 + b', 255⟩
  | [r, r', g, g', b, b', a, a'] =>
    return ⟨r * 16 + r', g * 16 + g', b * 16 + b', a * 16 + a'⟩
  | _ => none

def ofName? (name : String) : Option Color :=
  (names.lookup name).map fun n => ⟨n / 65536, n / 256 % 256, n % 256, 255⟩

/-- A part of a call: its size, and whether it was a percentage. -/
def component? (whole : Float32) (chars : List Char) : Option (Float32 × Bool) :=
  if chars.getLast? = some '%' then
    (Numeral.read? (String.ofList chars.dropLast)).map fun n => (n.toSingle / 100, true)
  else (Numeral.read? (String.ofList chars)).map fun n => (n.toSingle / whole, false)

/-- A part between zero and one as a byte, the nearest one. -/
def channel (x : Float32) : Nat :=
  let clamped := if x < 0 then 0 else if 1 < x then 1 else x
  Binary.byte (Binary.single.unpack (clamped * 255 + 0.5).toBits.toNat).truncate

/-- What stands between the parts of a call. -/
def isDivider (c : Char) : Bool :=
  c == ',' || c == '/' || c == ' ' || c == '\t' || c == '\n' || c == '\r' || c == '\x0c'

/-- The parts of a call. -/
def parts (chars : List Char) : List (List Char) :=
  (chars.splitOnP isDivider).filter fun part => !part.isEmpty

/-- The arguments of a call: three parts of one form, and alpha if there are four. -/
def ofParts? : List (List Char) → Option Color
  | [r, g, b] => do
    let (r, p) ← component? 255 r
    let (g, q) ← component? 255 g
    let (b, s) ← component? 255 b
    if p = q ∧ q = s then some ⟨channel r, channel g, channel b, 255⟩ else none
  | [r, g, b, a] => do
    let c ← ofParts? [r, g, b]
    let (a, _) ← component? 1 a
    return { c with alpha := channel a }
  | _ => none

/-- A call with a closing parenthesis at its end. -/
def ofCall? (chars : List Char) : Option Color :=
  let name := (String.ofList (chars.takeWhile (· != '('))).toLower
  if name = "rgb" ∨ name = "rgba" then
    ofParts? (parts ((chars.dropWhile (· != '(')).drop 1).dropLast)
  else none

def ofText? (text : String) : Option Color :=
  let text := Text.trim text
  let chars := text.toList
  let name := text.toLower
  if name = "transparent" then some ⟨0, 0, 0, 0⟩
  else if chars.head? = some '#' then ofDigits? (chars.drop 1)
  else if chars.contains '(' ∧ chars.getLast? = some ')' then ofCall? chars
  else (ofDigits? chars).or (ofName? name)

/-! ## Writing -/

/-- Alpha between zero and one, with two places. -/
def alphaText (c : Color) : String :=
  Quantity.numberText (Binary.round (Binary.ofInt c.alpha / 255 * 100) / 100)

/-- A call of `rgba` with the given alpha. -/
def callText (c : Color) (alpha : String) : String :=
  "rgba(" ++ ", ".intercalate [Decimal.text c.red, Decimal.text c.green, Decimal.text c.blue, alpha]
    ++ ")"

def text (c : Color) : String :=
  if c.alpha = 255 then
    "#" ++ Hexadecimal.byteText c.red ++ Hexadecimal.byteText c.green ++
      Hexadecimal.byteText c.blue
  else c.callText c.alphaText

end Color

end Stylesheet
