import Stylesheet.Number.Decimal
import Stylesheet.Number.Hexadecimal

/-!
# JSON

* `JsonTree`: a JSON text as a tree.
* `JsonTree.read?`: reads a whole text.
* `JsonNumeral.toSingle?`: the number that a numeral stands for, in single precision.
-/

namespace Stylesheet

/-- A number as it is written. -/
structure JsonNumeral where
  negative : Bool
  /-- The digits before the point. -/
  whole : List Char
  /-- The digits after the point. -/
  fraction : List Char
  exponent : Option Int
  deriving DecidableEq

/-- A text is missing in a string that holds half of a surrogate pair. -/
inductive JsonTree where
  | null
  | boolean (truth : Bool)
  | number (n : JsonNumeral)
  | string (text : Option String)
  | array (items : List JsonTree)
  | object (fields : List (Option String × JsonTree))

/-! ## Numbers -/

namespace JsonNumeral

/-- The least number that has no 64-bit word. -/
def wordLimit : Nat := 1 <<< 64

/-- Adds the digits before the point to a significand. Once it is full, each further digit counts
towards the exponent. -/
def addWhole (significand : Nat) (exponent : Int) : List Char → Nat × Int
  | [] => (significand, exponent)
  | c :: cs =>
    let next := significand * 10 + Decimal.value [c]
    if exponent = 0 ∧ next < wordLimit then addWhole next 0 cs
    else addWhole significand (exponent + 1) cs

/-- Adds the digits after the point to a significand, as long as it has room. -/
def addFraction (significand : Nat) (exponent : Int) : List Char → Nat × Int
  | [] => (significand, exponent)
  | c :: cs =>
    let next := significand * 10 + Decimal.value [c]
    if next < wordLimit then addFraction next (exponent - 1) cs else (significand, exponent)

/-- The greatest power of ten that is a double. -/
def maxPower : Nat := 308

def power (n : Nat) : Float := Binary.ofRatio false (Decimal.power n) 1

/-- Multiplies by a power of ten, in at most so many steps; nothing if the result is too large. -/
def scale : Nat → Float → Int → Option Float
  | 0, x, _ => some x
  | n + 1, x, e =>
    if e.natAbs ≤ maxPower then
      if 0 ≤ e then
        let y := x * power e.natAbs
        if y.isInf then none else some y
      else some (x / power e.natAbs)
    else if x == 0 then some x
    else if 0 ≤ e then none
    else scale n (x / power maxPower) (e + maxPower)

/-- A double as the nearest number in single precision. -/
def narrow (x : Float) : Float32 :=
  match Binary.unpack x with
  | .finite negative m e =>
    Float32.ofBits (UInt32.ofNat (Binary.single.pack negative (m <<< e.toNat) (1 <<< (-e).toNat)))
  | .infinite negative =>
    Float32.ofBits (UInt32.ofNat
      (Binary.single.infinity + if negative then Binary.single.signBit else 0))
  | .nan => Float32.ofBits (UInt32.ofNat Binary.single.nanBits)

/-- An integer that fits into 64 bits is taken exactly; any other number goes through double
precision, and must not be too large for it. -/
def toSingle? (n : JsonNumeral) : Option Float32 :=
  let (significand, exponent) := addWhole 0 0 n.whole
  let isWord := n.fraction.isEmpty && n.exponent.isNone && exponent == 0
  if isWord ∧ (!n.negative ∨ (0 < significand ∧ 2 * significand ≤ wordLimit)) then
    some (Float32.ofBits (UInt32.ofNat (Binary.single.pack n.negative significand 1)))
  else
    let (significand, exponent) := addFraction significand exponent n.fraction
    (scale 3 (Binary.ofInt significand) (exponent + n.exponent.getD 0)).map fun x =>
      narrow (if n.negative then -x else x)

end JsonNumeral

/-! ## Reading -/

namespace JsonTree

def isSpace (c : Char) : Bool := c == ' ' || c == '\t' || c == '\n' || c == '\r'

def skipSpace (chars : List Char) : List Char := chars.dropWhile isSpace

/-- What an escaped character stands for. -/
def escaped? : Char → Option Char
  | '"' => some '"'
  | '\\' => some '\\'
  | '/' => some '/'
  | 'b' => some '\x08'
  | 'f' => some '\x0c'
  | 'n' => some '\n'
  | 'r' => some '\r'
  | 't' => some '\t'
  | _ => none

/-- The text of a string so far, reversed; it is missing once half of a pair was met. -/
structure StringText where
  chars : Option (List Char) := some []
  /-- The first half of a surrogate pair. -/
  half : Option Nat := none

namespace StringText

/-- Adds a character, which no half of a pair may wait for. -/
def push (t : StringText) (c : Char) : StringText :=
  if t.half.isSome then { chars := none } else { chars := t.chars.map (c :: ·) }

/-- Adds a 16-bit unit. -/
def pushUnit (t : StringText) (n : Nat) : StringText :=
  match t.half with
  | some h =>
    if 0xdc00 ≤ n ∧ n < 0xe000 then
      { chars := t.chars.map (Char.ofNat (0x10000 + (h - 0xd800) * 0x400 + (n - 0xdc00)) :: ·) }
    else { chars := none }
  | none =>
    if 0xd800 ≤ n ∧ n < 0xdc00 then { t with half := some n }
    else if 0xdc00 ≤ n ∧ n < 0xe000 then { chars := none }
    else t.push (Char.ofNat n)

def finish (t : StringText) : Option String :=
  if t.half.isSome then none else t.chars.map fun cs => String.ofList cs.reverse

end StringText

/-- Goes on with a string after its opening quote. -/
def readString (text : StringText) : List Char → Option (Option String × List Char)
  | [] => none
  | '"' :: rest => some (text.finish, rest)
  | '\\' :: 'u' :: a :: b :: c :: d :: rest =>
    match [a, b, c, d].mapM Hexadecimal.value? with
    | some ds => readString (text.pushUnit (ds.foldl (fun n d => n * 16 + d) 0)) rest
    | none => none
  | '\\' :: c :: rest =>
    match escaped? c with
    | some e => readString (text.push e) rest
    | none => none
  | c :: rest => if c.toNat < 0x20 then none else readString (text.push c) rest

def splitDigits (chars : List Char) : List Char × List Char :=
  (chars.takeWhile Decimal.isDigit, chars.dropWhile Decimal.isDigit)

/-- The digits before the point: no zero comes before another digit. -/
def readWhole (chars : List Char) : Option (List Char × List Char) :=
  match splitDigits chars with
  | ([], _) => none
  | ('0' :: _ :: _, _) => none
  | split => some split

/-- A point and the digits after it, if there is one. -/
def readFraction : List Char → Option (List Char × List Char)
  | '.' :: rest =>
    match splitDigits rest with
    | ([], _) => none
    | split => some split
  | rest => some ([], rest)

/-- An exponent, if there is one. -/
def readExponent : List Char → Option (Option Int × List Char)
  | c :: rest =>
    if c = 'e' ∨ c = 'E' then
      let (negative, rest) := match rest with
        | '-' :: rest => (true, rest)
        | '+' :: rest => (false, rest)
        | rest => (false, rest)
      match splitDigits rest with
      | ([], _) => none
      | (ds, rest) =>
        let size : Int := Decimal.value ds
        some (some (if negative then -size else size), rest)
    else some (none, c :: rest)
  | [] => some (none, [])

def readNumber (chars : List Char) : Option (JsonTree × List Char) := do
  let (negative, chars) := match chars with
    | '-' :: rest => (true, rest)
    | rest => (false, rest)
  let (whole, chars) ← readWhole chars
  let (fraction, chars) ← readFraction chars
  let (exponent, chars) ← readExponent chars
  return (.number ⟨negative, whole, fraction, exponent⟩, chars)

mutual

/-- A value, in at most so many steps. -/
def readValue : Nat → List Char → Option (JsonTree × List Char)
  | 0, _ => none
  | n + 1, chars =>
    match skipSpace chars with
    | 'n' :: 'u' :: 'l' :: 'l' :: rest => some (.null, rest)
    | 't' :: 'r' :: 'u' :: 'e' :: rest => some (.boolean true, rest)
    | 'f' :: 'a' :: 'l' :: 's' :: 'e' :: rest => some (.boolean false, rest)
    | '"' :: rest => (readString {} rest).map fun (text, rest) => (.string text, rest)
    | '[' :: rest =>
      match skipSpace rest with
      | ']' :: rest => some (.array [], rest)
      | rest => readItems [] n rest
    | '\x7b' :: rest =>
      match skipSpace rest with
      | '\x7d' :: rest => some (.object [], rest)
      | rest => readFields [] n rest
    | chars => readNumber chars

/-- Goes on with an array at an item; the items so far are reversed. -/
def readItems (found : List JsonTree) : Nat → List Char → Option (JsonTree × List Char)
  | 0, _ => none
  | n + 1, chars => do
    let (item, rest) ← readValue n chars
    match skipSpace rest with
    | ',' :: rest => readItems (item :: found) n rest
    | ']' :: rest => some (.array (item :: found).reverse, rest)
    | _ => none

/-- Goes on with an object at a field; the fields so far are reversed. -/
def readFields (found : List (Option String × JsonTree)) :
    Nat → List Char → Option (JsonTree × List Char)
  | 0, _ => none
  | n + 1, chars =>
    match skipSpace chars with
    | '"' :: rest => do
      let (key, rest) ← readString {} rest
      match skipSpace rest with
      | ':' :: rest =>
        let (item, rest) ← readValue n rest
        match skipSpace rest with
        | ',' :: rest => readFields ((key, item) :: found) n rest
        | '\x7d' :: rest => some (.object ((key, item) :: found).reverse, rest)
        | _ => none
      | _ => none
    | _ => none

end

/-- Reads a whole text. -/
def read? (text : String) : Option JsonTree :=
  match readValue (2 * (text.length + 1)) text.toList with
  | some (tree, rest) => if (skipSpace rest).isEmpty then some tree else none
  | none => none

end JsonTree

end Stylesheet
