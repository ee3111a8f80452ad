import Stylesheet.Url.Host
import Stylesheet.Url.Path

/-!
# Authorities

What stands between the two slashes of a url and its path: a user before the last `@`, a host, and a
number after a colon.

* `Authority.split`: the parts.
* `Authority.read?`: the path after a well-formed authority.
-/

namespace Stylesheet

/-- The parts of an authority and what follows it. -/
structure Authority where
  /-- What stands before the last `@`. -/
  user : Option (List Char)
  host : List Char
  /-- From the colon on. -/
  rest : List Char

namespace Authority

open Url

/-- Whether a character ends an authority. -/
def isEnd (kind : SchemeKind) (c : Char) : Bool :=
  c == '/' || endsPath c || (kind.hasBackslash && c == '\\')

/-- The part before the last `@`, and the part after it. -/
def splitUser (chars : List Char) : Option (List Char) × List Char :=
  if chars.contains '@' then
    let last := (chars.reverse.takeWhile (· != '@')).reverse
    (some (chars.take (chars.length - last.length - 1)), last)
  else (none, chars)

/-- The host at the head of a text. A colon in brackets belongs to it. -/
def hostPart (inBrackets : Bool) : List Char → List Char
  | [] => []
  | c :: cs =>
    if c = ':' ∧ !inBrackets then []
    else c :: hostPart (if c = '[' then true else if c = ']' then false else inBrackets) cs

/-- Splits an authority off a text. -/
def split (kind : SchemeKind) (chars : List Char) : Authority :=
  let inner := chars.takeWhile fun c => !isEnd kind c
  let (user, hostAndNumber) := splitUser inner
  let host := hostPart false hostAndNumber
  ⟨user, host, hostAndNumber.drop host.length ++ chars.drop inner.length⟩

/-- Whether there is a user. A colon alone names none. -/
def hasUser (a : Authority) : Bool := a.user.any fun user => !(user == [] || user == [':'])

/-- Whether the host is well formed. It may be empty where the urls of a scheme need none, if there
is neither a user nor a number. -/
def hasHost (kind : SchemeKind) (a : Authority) : Bool :=
  if a.host.isEmpty then
    kind == .other && a.rest.head? != some ':' && !a.hasUser &&
      !(a.user.isSome && a.rest.head?.any (isEnd kind))
  else (if kind = .other then Host.readPlain? a.host else Host.read? a.host).isSome

/-- What follows the number after the colon. It has 16 bits, and may be left out. -/
def afterNumber? : List Char → Option (List Char)
  | ':' :: rest =>
    let digits := rest.takeWhile Decimal.isDigit
    let after := rest.drop digits.length
    if Decimal.value digits < 65536 ∧ after.head?.all (fun c => isSlash c || endsPath c) then
      some after
    else none
  | rest => some rest

/-- The path that follows an authority. Where the urls of a scheme always have one, it starts with a
slash that may be left out. -/
def pathAfter (kind : SchemeKind) : List Char → List String
  | [] => if kind = .other then [] else [""]
  | c :: rest =>
    if endsPath c then if kind = .other then [] else [""]
    else if c = '/' ∨ (kind.hasBackslash ∧ c = '\\') then readPath kind [""] rest
    else readPath kind [""] (c :: rest)

/-- The path after an authority, which has to be well formed. -/
def read? (kind : SchemeKind) (chars : List Char) : Option (List String) := do
  let a := split kind chars
  let rest ← afterNumber? a.rest
  if a.hasHost kind then some (pathAfter kind rest) else none

end Authority

end Stylesheet
