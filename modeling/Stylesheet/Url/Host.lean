import Stylesheet.Url.Address
import Stylesheet.Url.Basic
import Stylesheet.Url.Domain

/-!
# Hosts

* `Host.read?`: the host of a url on the web or of a file: a domain or a numeric address. What is
  percent-encoded in it is decoded first.
* `Host.readPlain?`: the host of any other url, which is hardly checked.
-/

namespace Stylesheet

inductive Host where
  | domain (labels : List (List Char))
  | address
  | plain (text : List Char)
  deriving DecidableEq

namespace Host

/-! ## Percent-encoding -/

/-- Bytes with what is percent-encoded decoded. -/
def percentDecodeBytes : List UInt8 → List UInt8
  | [] => []
  | percent :: high :: low :: rest =>
    let digit? (byte : UInt8) : Option Nat := Hexadecimal.value? (Char.ofNat byte.toNat)
    if percent = '%'.toUInt8 then
      match digit? high, digit? low with
      | some h, some l => (16 * h + l).toUInt8 :: percentDecodeBytes rest
      | _, _ => percent :: percentDecodeBytes (high :: low :: rest)
    else percent :: percentDecodeBytes (high :: low :: rest)
  | byte :: rest => byte :: percentDecodeBytes rest

/-- A text with what is percent-encoded decoded, if that gives a text. -/
def percentDecode? (chars : List Char) : Option (List Char) :=
  let bytes := percentDecodeBytes (String.ofList chars).toUTF8.toList
  (String.fromUTF8? ⟨bytes.toArray⟩).map String.toList

/-! ## Reading -/

/-- The address in brackets, where a host starts with a bracket. -/
def readBracketed? (chars : List Char) : Option Host :=
  if chars.getLast? = some ']' ∧ Address.isLong chars.dropLast then some address else none

/-- A domain with at least one character. One that ends in a number has to be an address. -/
def readDomain? (chars : List Char) : Option Host := do
  let labels ← Domain.labels? (← percentDecode? chars)
  if labels = [[]] then none
  else if Address.endsInNumber labels then
    if Address.isShort labels then some address else none
  else some (domain labels)

/-- The host of a url on the web or of a file. -/
def read? : List Char → Option Host
  | '[' :: rest => readBracketed? rest
  | chars => readDomain? chars

/-- Characters that no host can hold. -/
def isForbidden (c : Char) : Bool := "\x00\t\n\r #/:<>?@[\\]^|".toList.contains c

/-- The host of any other url. -/
def readPlain? : List Char → Option Host
  | '[' :: rest => readBracketed? rest
  | chars => if chars.any isForbidden then none else some (plain chars)

/-- Whether a host is the machine itself. -/
def isLocal (host : Host) : Bool := host = domain ["localhost".toList]

end Host

end Stylesheet
