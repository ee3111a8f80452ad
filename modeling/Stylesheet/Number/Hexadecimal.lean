/-!
# Hexadecimal digits

* `value?`: the number that a digit stands for, in either letter case.
* `digit`, `byteText`: digits in lower case.
-/

namespace Stylesheet.Hexadecimal

/-- The number that a digit stands for. -/
def value? (c : Char) : Option Nat :=
  if '0' ≤ c ∧ c ≤ '9' then some (c.toNat - '0'.toNat)
  else if 'a' ≤ c ∧ c ≤ 'f' then some (c.toNat - 'a'.toNat + 10)
  else if 'A' ≤ c ∧ c ≤ 'F' then some (c.toNat - 'A'.toNat + 10)
  else none

/-- The digit of a number below sixteen. -/
def digit (n : Nat) : Char := Nat.digitChar n

/-- The two digits of a byte. -/
def byteText (n : Nat) : String := String.ofList [digit (n / 16), digit (n % 16)]

end Stylesheet.Hexadecimal
