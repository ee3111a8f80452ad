import Stylesheet.Number.Binary

/-!
# Decimal text of numbers

* `Numeral.read?`: reads a decimal numeral with an optional fraction and exponent, and the words for
  infinity and NaN in any letter case.
* `Numeral.toDouble`, `Numeral.toSingle`: the nearest number of a format.
* `Format.shortest`: the fewest decimal digits that read back as a given number, and of those the
  nearest to it, a tie going up.
* `Decimal.text`: positional notation, never with an exponent.
-/

namespace Stylesheet

open Binary

/-- A decimal number `coefficient * 10 ^ exponent`. -/
structure Decimal where
  coefficient : Nat
  exponent : Int

/-! ## Digits -/

namespace Decimal

def isDigit (c : Char) : Bool := '0' ≤ c && c ≤ '9'

/-- The power of ten with the given exponent. -/
def power (n : Nat) : Nat := Nat.pow 10 n

/-- The value of a run of digits. -/
def value (digits : List Char) : Nat :=
  digits.foldl (fun n c => 10 * n + (c.toNat - '0'.toNat)) 0

/-- The digits of a number, at least one. -/
def digits (n : Nat) : List Char := Nat.toDigits 10 n

def text (n : Nat) : String := String.ofList (digits n)

/-- An integer with a leading minus if it is negative. -/
def textInt (n : Int) : String := if n < 0 then "-" ++ text n.natAbs else text n.natAbs

end Decimal

/-! ## Reading -/

/-- What a numeral denotes: `digits * 10 ^ exponent`, or one of the words. -/
inductive Numeral where
  | nan
  | infinite (negative : Bool)
  | finite (negative : Bool) (digits : Nat) (exponent : Int)

namespace Numeral

/-- Splits off a leading sign. -/
def sign : List Char → Bool × List Char
  | '-' :: cs => (true, cs)
  | '+' :: cs => (false, cs)
  | cs => (false, cs)

/-- An exponent part, or nothing at all. -/
def exponent? : List Char → Option Int
  | [] => some 0
  | c :: cs =>
    if c = 'e' ∨ c = 'E' then
      let (negative, ds) := sign cs
      if ds.isEmpty || !ds.all Decimal.isDigit then none
      else some (if negative then -(Decimal.value ds : Int) else Decimal.value ds)
    else none

/-- Splits off a fraction: a point and the digits after it, of which there may be none. -/
def fraction : List Char → List Char × List Char
  | '.' :: cs => (cs.takeWhile Decimal.isDigit, cs.dropWhile Decimal.isDigit)
  | cs => ([], cs)

/-- Reads a whole text as a numeral. -/
def read? (s : String) : Option Numeral :=
  let (negative, cs) := sign s.toList
  let word := String.ofList (cs.map Char.toLower)
  if word = "inf" ∨ word = "infinity" then some (.infinite negative)
  else if word = "nan" then some .nan
  else
    let whole := cs.takeWhile Decimal.isDigit
    let (part, rest) := fraction (cs.dropWhile Decimal.isDigit)
    if whole.isEmpty && part.isEmpty then none
    else
      (exponent? rest).map fun e =>
        .finite negative (Decimal.value (whole ++ part)) (e - part.length)

/-- Beyond this many places from the point a numeral is out of range of every format. -/
def farthest : Int := 400

/-- The bit pattern of the nearest number of a format. -/
def bits (f : Format) : Numeral → Nat
  | nan => f.nanBits
  | infinite negative => if negative then f.signBit + f.infinity else f.infinity
  | finite negative digits e =>
    let places := ((Decimal.digits digits).length : Int) + e
    if digits = 0 ∨ places < -farthest then f.pack negative 0 1
    else if farthest < places then bits f (infinite negative)
    else f.pack negative (digits * Decimal.power e.toNat) (Decimal.power (-e).toNat)

def toDouble (n : Numeral) : Float := Float.ofBits (UInt64.ofNat (n.bits double))

def toSingle (n : Numeral) : Float32 := Float32.ofBits (UInt32.ofNat (n.bits single))

end Numeral

/-! ## Writing -/

namespace Binary.Format

/-- The least `k` with `num / den < 10 ^ k`. -/
def magnitude (num den : Nat) : Int :=
  if den ≤ num then (Decimal.digits (num / den)).length
  else 1 - (Decimal.digits ((den - 1) / num)).length

/-- The ends of the interval of ratios that round to `m * 2 ^ e`, and the number itself, all three
over four times the unit of the exponent; and whether the ends belong to the interval. -/
structure Interval where
  low : Nat
  value : Nat
  high : Nat
  den : Nat
  closed : Bool

/-- The numbers that round to `m * 2 ^ e`. Below a power of two the gap is half as wide. -/
def interval (f : Format) (m : Nat) (e : Int) : Interval :=
  let up := 1 <<< (e - 2).toNat
  let low := if m = f.hidden ∧ e ≠ f.least then 4 * m - 1 else 4 * m - 2
  ⟨low * up, 4 * m * up, (4 * m + 2) * up, 1 <<< (2 - e).toNat, m % 2 == 0⟩

/-- The point of the grid `10 ^ t` that lies in the interval next to its number, if there is one. -/
def Interval.onGrid (i : Interval) (t : Int) : Option Decimal :=
  let up := Decimal.power (-t).toNat
  let unit := i.den * Decimal.power t.toNat
  let below := i.value * up / unit
  let within (a b : Nat) : Bool := if i.closed then a ≤ b else a < b
  let down := within (i.low * up) (below * unit)
  let above := within ((below + 1) * unit) (i.high * up)
  let near := decide (2 * (i.value * up % unit) < unit)
  if down && (near || !above) then some ⟨below, t⟩
  else if above then some ⟨below + 1, t⟩
  else none

/-- The shortest decimal that reads back as `m * 2 ^ e`; no format needs more than 17 digits. -/
def shortest (f : Format) (m : Nat) (e : Int) : Decimal :=
  let i := f.interval m e
  let k := magnitude i.value i.den
  ((List.range 17).findSome? fun n => i.onGrid (k - (n + 1 : Nat))).getD ⟨0, 0⟩

end Binary.Format

namespace Decimal

/-- The digits after the point, without the zeros at their end. -/
def fractionText (cs : List Char) : List Char :=
  match (cs.reverse.dropWhile (· == '0')).reverse with
  | [] => []
  | ds => '.' :: ds

/-- Positional notation. -/
def positional (d : Decimal) : String :=
  let ds := digits d.coefficient
  if 0 ≤ d.exponent then String.ofList (ds ++ List.replicate d.exponent.toNat '0')
  else
    let places := (-d.exponent).toNat
    let padded := List.replicate (places + 1 - ds.length) '0' ++ ds
    let whole := padded.length - places
    String.ofList (padded.take whole ++ fractionText (padded.drop whole))

end Decimal

/-- The shortest positional text of a number of a format. -/
def Binary.Format.text (f : Format) (bits : Nat) : String :=
  match f.unpack bits with
  | .nan => "NaN"
  | .infinite negative => if negative then "-inf" else "inf"
  | .finite negative m e =>
    let size := if m = 0 then "0" else (f.shortest m e).positional
    if negative then "-" ++ size else size

/-- The shortest positional text of a double. -/
def Decimal.ofDouble (x : Float) : String := double.text x.toBits.toNat

/-- The shortest positional text of a 32-bit number. -/
def Decimal.ofSingle (x : Float32) : String := single.text x.toBits.toNat

end Stylesheet
