import Stylesheet.Text.Joining
import Stylesheet.Text.Mark
import Stylesheet.Url.Character
import Stylesheet.Url.Punycode

/-!
# Domains

The name of a domain is a list of labels with points between them. A label beyond ASCII can also be
spelled in ASCII, after `xn--`.

* `Domain.decoded?`: the label that a label spells.
* `Domain.labels?`: the labels of a domain as they are mapped, if all of them can be used.
-/

namespace Stylesheet.Domain

/-- ASCII characters that no domain can hold. -/
def isDenied (c : Char) : Bool :=
  c.toNat ≤ 0x20 || c.toNat == 0x7f || "#%/:<>?@[\\]^|".toList.contains c

def isPlain (label : List Char) : Bool := label.all fun c => c.toNat < 0x80

/-! ## Labels -/

/-- What stands before the spelling of a label. -/
def spellingMark : List Char := "xn--".toList

/-- The longest spelling that is read, and the longest label that is spelled. -/
def maxSpelling : Nat := 2000

def maxLabel : Nat := 1000

/-- The label that a label spells; any other one spells itself. What is spelled has to be as it
would be mapped, and must not be plain. -/
def decoded? (label : List Char) : Option (List Char) :=
  if spellingMark.isPrefixOf label then
    let spelling := label.drop spellingMark.length
    if isPlain label && spelling.length ≤ maxSpelling && spelling.getLast?.any (· != '-') then do
      let text ← Punycode.decode? spelling
      if text.all isKept && Text.compose text = text then some text else none
    else none
  else if isPlain label || label.length ≤ maxLabel then some label
  else none

/-- Whether a label that is not plain can be used. -/
def isLabel (label : List Char) : Bool :=
  isPlain label || (!label.head?.any Text.isMark && Text.joinersShow label)

/-- Whether the labels of a domain can stand side by side in one order only. -/
def areOrdered (labels : List (List Char)) : Bool :=
  !labels.any (fun label => label.any Text.isLeftward) || labels.all Text.isOrdered

/-! ## Names -/

/-- The labels of a domain, mapped and composed, if all of them can be used. -/
def labels? (chars : List Char) : Option (List (List Char)) := do
  let mapped := Text.compose (← chars.mapM mapped?).flatten
  let labels := Text.splitOn '.' mapped
  let decoded ← labels.mapM decoded?
  if !mapped.any isDenied && decoded.all isLabel && areOrdered decoded then some labels else none

end Stylesheet.Domain
