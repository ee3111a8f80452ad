import Stylesheet.Number.Decimal
import Stylesheet.Number.Hexadecimal
import Stylesheet.Text.Split

/-!
# Numeric addresses

* `Address.endsInNumber`, `Address.isShort`: hosts of up to four numbers with points between them.
* `Address.isLong`: hosts of eight pieces with colons between them, one run of which may be left
  out.
-/

namespace Stylesheet.Address

/-! ## Numbers -/

/-- The value of digits to a base, zero if there are none. -/
def value? (base : Nat) (digits : List Char) : Option Nat :=
  digits.foldlM (fun n c => do
    let d ← Hexadecimal.value? c
    if d < base then some (base * n + d) else none) 0

/-- A number in decimal, in octal after a zero, or in hexadecimal after `0x`. -/
def number? : List Char → Option Nat
  | [] => none
  | '0' :: 'x' :: digits => value? 16 digits
  | '0' :: 'X' :: digits => value? 16 digits
  | '0' :: digits => value? 8 digits
  | digits => value? 10 digits

/-! ## Four bytes -/

/-- The labels of a host without the empty one after a final point. -/
def withoutFinalPoint (labels : List (List Char)) : List (List Char) :=
  if labels.getLast?.any List.isEmpty then labels.dropLast else labels

/-- Whether the last label of a host is a number, so that the host has to be an address. -/
def endsInNumber (labels : List (List Char)) : Bool :=
  match (withoutFinalPoint labels).getLast? with
  | none => false
  | some last => (!last.isEmpty && last.all Decimal.isDigit) || (number? last).isSome

/-- Whether numbers stand for four bytes: each for one, and the last for all that remain. -/
def areBytes (numbers : List Nat) : Bool :=
  match numbers.getLast? with
  | none => false
  | some last =>
    numbers.length ≤ 4 && numbers.dropLast.all (· < 256) &&
      last < 1 <<< (8 * (5 - numbers.length))

/-- Whether the labels of a host are an address of four bytes. -/
def isShort (labels : List (List Char)) : Bool :=
  ((withoutFinalPoint labels).mapM number?).any areBytes

/-! ## Eight pieces -/

/-- A byte in decimal without leading zeros. -/
def isByte (digits : List Char) : Bool :=
  !digits.isEmpty && digits.all Decimal.isDigit && (digits == ['0'] || digits.head? != some '0') &&
    Decimal.value digits < 256

/-- Four bytes with points between them. -/
def isQuad (chars : List Char) : Bool :=
  let parts := Text.splitOn '.' chars
  parts.length == 4 && parts.all isByte

/-- The hexadecimal digits at the head of a text, four at most. -/
def piece (chars : List Char) : List Char :=
  (chars.take 4).takeWhile fun c => (Hexadecimal.value? c).isSome

/-- Whether a number of pieces is enough, where some may be left out once. -/
def isComplete (count : Nat) (shortened : Bool) : Bool := shortened || count == 8

/-- Reads the pieces of an address from the place where a piece starts, after `count` of them. The
last two may be written as four bytes. -/
def isLongFrom (count : Nat) (shortened : Bool) (chars : List Char) : Bool :=
  match chars with
  | [] => isComplete count shortened
  | ':' :: rest => count < 8 && !shortened && isLongFrom (count + 1) true rest
  | c :: cs =>
    let digits := piece (c :: cs)
    match h : (c :: cs).drop digits.length with
    | [] => count < 8 && isComplete (count + 1) shortened
    | '.' :: _ =>
      !digits.isEmpty && count ≤ 6 && isQuad (c :: cs) && isComplete (count + 2) shortened
    | ':' :: rest => count < 8 && !rest.isEmpty && isLongFrom (count + 1) shortened rest
    | _ => false
termination_by chars.length
decreasing_by
  · simp
  · have := congrArg List.length h
    simp only [List.length_drop, List.length_cons] at this ⊢
    omega

/-- Whether a text is an address of eight pieces. -/
def isLong : List Char → Bool
  | ':' :: ':' :: rest => isLongFrom 1 true rest
  | ':' :: _ => false
  | chars => isLongFrom 0 false chars

end Stylesheet.Address
