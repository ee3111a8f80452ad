/-!
# Binary floating-point numbers, exactly

A number of a binary format is taken apart into sign, mantissa and exponent, and put together again
from an exact ratio by rounding to nearest, ties to even. Everything in between is arithmetic on
natural numbers.

* `Format.unpack`, `Format.nearest`: the two directions, on bit patterns.
* `round`, `floor`, `ceil`, `remainder`: the usual functions on doubles.
* `truncate`: a double as a 64-bit integer, saturating.
-/

namespace Stylesheet.Binary

/-- A binary format. Its finite numbers are `m * 2 ^ e` with `m < 2 ^ precision` and `least ≤ e`;
`infinity` is the bit pattern of the positive infinity. -/
structure Format where
  precision : Nat
  least : Int
  infinity : Nat

/-- The 64-bit format. -/
def double : Format := ⟨53, -1074, 0x7ff0000000000000⟩

/-- The 32-bit format. -/
def single : Format := ⟨24, -149, 0x7f800000⟩

/-- A floating-point number taken apart. -/
inductive Parts where
  | nan
  | infinite (negative : Bool)
  | finite (negative : Bool) (mantissa : Nat) (exponent : Int)

namespace Format

/-- The weight of the leading mantissa bit, which the bit pattern leaves out. -/
def hidden (f : Format) : Nat := 1 <<< (f.precision - 1)

/-- The weight of the sign bit. -/
def signBit (f : Format) : Nat := f.infinity + f.hidden

/-- The bit pattern of a quiet NaN. -/
def nanBits (f : Format) : Nat := f.infinity + f.hidden / 2

/-- Takes a bit pattern apart. -/
def unpack (f : Format) (bits : Nat) : Parts :=
  let negative := decide (f.signBit ≤ bits)
  let size := bits % f.signBit
  if size = f.infinity then .infinite negative
  else if f.infinity < size then .nan
  else
    let field := size / f.hidden
    if field = 0 then .finite negative size f.least
    else .finite negative (size % f.hidden + f.hidden) (f.least + field - 1)

end Format

/-! ## Rounding -/

/-- A quotient rounded to the nearest natural number, ties to even. -/
def roundQuotient (num den : Nat) : Nat :=
  let q := num / den
  let r := num % den
  if 2 * r < den then q
  else if den < 2 * r then q + 1
  else if q % 2 = 0 then q else q + 1

/-- The greatest `e` with `2 ^ e ≤ num / den`. -/
def floorLog (num den : Nat) : Int :=
  let e : Int := (num.log2 : Int) - (den.log2 : Int)
  if den <<< e.toNat ≤ num <<< (-e).toNat then e else e - 1

namespace Format

/-- The bit pattern of the number nearest to `num / den`, ties to even. What is too large becomes
infinite. -/
def nearest (f : Format) (num den : Nat) : Nat :=
  if num = 0 then 0
  else
    let q := max f.least (floorLog num den - (f.precision - 1))
    let m := roundQuotient (num <<< (-q).toNat) (den <<< q.toNat)
    min ((q - f.least).toNat * f.hidden + m) f.infinity

/-- The bit pattern of a signed ratio. -/
def pack (f : Format) (negative : Bool) (num den : Nat) : Nat :=
  if negative then f.signBit + f.nearest num den else f.nearest num den

end Format

/-! ## Doubles -/

def unpack (x : Float) : Parts := double.unpack x.toBits.toNat

/-- The double nearest to a signed ratio. -/
def ofRatio (negative : Bool) (num den : Nat) : Float :=
  Float.ofBits (UInt64.ofNat (double.pack negative num den))

/-- The double nearest to an integer. -/
def ofInt (n : Int) : Float := ofRatio (n < 0) n.natAbs 1

def nan : Float := Float.ofBits (UInt64.ofNat double.nanBits)

/-- Rounds to a whole number by `pick`, which gets the sign, the quotient and whether the remainder
is null and at least half. -/
def toWhole (pick : Bool → Nat → Bool → Bool → Nat) (x : Float) : Float :=
  match unpack x with
  | .finite negative m e =>
    if 0 ≤ e then x
    else
      let d := 1 <<< (-e).toNat
      ofRatio negative (pick negative (m / d) (m % d == 0) (decide (d ≤ 2 * (m % d)))) 1
  | _ => x

/-- The nearest whole number, halves away from zero. -/
def round : Float → Float :=
  toWhole fun _ q _ half => if half then q + 1 else q

/-- The greatest whole number below. -/
def floor : Float → Float :=
  toWhole fun negative q exact _ => if negative && !exact then q + 1 else q

/-- The least whole number above. -/
def ceil : Float → Float :=
  toWhole fun negative q exact _ => if negative || exact then q else q + 1

/-- The remainder of a truncated division; it has the sign of the dividend. -/
def remainder (x y : Float) : Float :=
  match unpack x, unpack y with
  | .finite negative m e, .finite _ n f =>
    if n = 0 then nan
    else
      let g := min e f
      let r := (m <<< (e - g).toNat) % (n <<< (f - g).toNat)
      ofRatio negative (r <<< g.toNat) (1 <<< (-g).toNat)
  | .finite _ _ _, .infinite _ => x
  | _, _ => nan

/-- The remainder of a floored division by a positive number. -/
def wrap (x y : Float) : Float :=
  let r := remainder x y
  if r < 0 then r + y else r

/-- The least and the greatest 64-bit integer. -/
def minInteger : Int := -9223372036854775808

def maxInteger : Int := 9223372036854775807

/-- The whole part as a 64-bit integer. What does not fit becomes the nearest that does, and NaN
becomes zero. -/
def Parts.truncate : Parts → Int
  | .nan => 0
  | .infinite negative => if negative then minInteger else maxInteger
  | .finite negative m e =>
    let n : Int := ((m <<< e.toNat) >>> (-e).toNat : Nat)
    max minInteger (min maxInteger (if negative then -n else n))

def truncate (x : Float) : Int := (unpack x).truncate

/-- An integer as a byte; what does not fit becomes the nearest that does. -/
def byte (n : Int) : Nat := (max 0 (min 255 n)).toNat

end Stylesheet.Binary
