/-!
# Punycode

The spelling of a label of a domain in letters, digits and hyphens. What stands before the last
hyphen are the plain characters of the label; what stands after it are numbers of varying length,
each of which says which character comes next in order and where it goes.

* `Punycode.decode?`: the label that is spelled, which fails on digits that say nothing, or a
  number that is too large.
-/

namespace Stylesheet.Punycode

/-- The value of a digit: letters in either case, then the decimal digits. -/
def digit? (c : Char) : Option Nat :=
  if 'a' ≤ c ∧ c ≤ 'z' then some (c.toNat - 'a'.toNat)
  else if 'A' ≤ c ∧ c ≤ 'Z' then some (c.toNat - 'A'.toNat)
  else if '0' ≤ c ∧ c ≤ '9' then some (c.toNat - '0'.toNat + 26)
  else none

/-- The least digit that does not end a number, at the place `k`. -/
def threshold (k bias : Nat) : Nat :=
  if k ≤ bias then 1 else if bias + 26 ≤ k then 26 else k - bias

/-- Divides a step down until it is small, and counts in `k` how often. -/
def scale (delta k : Nat) : Nat :=
  if 455 < delta then scale (delta / 35) (k + 36) else k + 36 * delta / (delta + 38)
termination_by delta
decreasing_by exact Nat.div_lt_self (by omega) (by omega)

/-- The bias for the next number, from the step just made and the length of the label. -/
def adapt (delta length : Nat) (first : Bool) : Nat :=
  let delta := if first then delta / 700 else delta / 2
  scale (delta + delta / length) 0

/-- The bound below which numbers have to stay. -/
def limit : Nat := 1 <<< 32

/-- A number, added to `total`, and what follows it. The next digit stands at the place `k` and has
the given weight. -/
def readNumber? (bias k weight total : Nat) : List Char → Option (Nat × List Char)
  | [] => none
  | c :: cs => do
    let d ← digit? c
    let total := total + d * weight
    if limit ≤ total then none
    else if d < threshold k bias then some (total, cs)
    else
      let weight := weight * (36 - threshold k bias)
      if limit ≤ weight then none else readNumber? bias (k + 36) weight total cs

theorem length_lt_of_readNumber? {bias k weight total : Nat} {cs : List Char}
    {r : Nat × List Char} (h : readNumber? bias k weight total cs = some r) :
    r.2.length < cs.length := by
  induction cs generalizing k weight total with
  | nil => simp [readNumber?] at h
  | cons c cs ih =>
    simp only [readNumber?, Option.bind_eq_bind, Option.bind_eq_some_iff] at h
    obtain ⟨d, _, h⟩ := h
    split at h
    · simp at h
    · split at h
      · cases h
        simp
      · split at h
        · simp at h
        · have := ih h
          simp only [List.length_cons]
          omega

/-- Puts characters into a label. The last one had the code `code`, and the next one goes to
`index` or behind it. -/
def insert? (bias code index : Nat) (label cs : List Char) : Option (List Char) :=
  if cs.isEmpty then some label
  else
    match h : readNumber? bias 36 1 index cs with
    | none => none
    | some (total, rest) =>
      let length := label.length + 1
      let place := total % length
      let code := code + total / length
      if code.isValidChar then
        insert? (adapt (total - index) length (index == 0)) code (place + 1)
          (label.insertIdx place (Char.ofNat code)) rest
      else none
termination_by cs.length
decreasing_by exact length_lt_of_readNumber? h

/-- The plain characters before the last hyphen, and the digits after it. A hyphen with nothing
before it is left in front of the digits. -/
def split (chars : List Char) : List Char × List Char :=
  let digits := (chars.reverse.takeWhile (· != '-')).reverse
  let plain := (chars.take (chars.length - digits.length)).dropLast
  if plain.isEmpty then ([], chars) else (plain, digits)

/-- The label that a text spells. -/
def decode? (chars : List Char) : Option (List Char) :=
  let (plain, digits) := split chars
  insert? 72 128 0 plain digits

end Stylesheet.Punycode
