import Stylesheet.Number.Hexadecimal

/-!
# Urls

A url is kept as its scheme and its path: nothing else of it is ever asked for.

* `Url`, `UrlPath`, `SchemeKind`.
* `Url.clean`, `Url.encode`: the characters of a reference, and of a path.
* `Url.splitScheme?`: the scheme that a reference starts with.
-/

namespace Stylesheet

inductive UrlPath where
  /-- Segments, each after a slash. -/
  | segments (items : List String)
  /-- The path of a url such as `mailto:me`, onto which nothing can be joined. -/
  | whole (text : String)
  deriving DecidableEq

def UrlPath.text : UrlPath → String
  | segments [] => ""
  | segments items => "/" ++ "/".intercalate items
  | whole text => text

structure Url where
  scheme : String
  path : UrlPath
  deriving DecidableEq

/-- How the urls of a scheme are read. -/
inductive SchemeKind where
  /-- A host may be missing, and a path may start with a drive. -/
  | file
  /-- There is always a host and a path. -/
  | web
  | other
  deriving DecidableEq

namespace SchemeKind

def ofScheme (scheme : String) : SchemeKind :=
  if scheme = "file" then file
  else if scheme ∈ ["http", "https", "ws", "wss", "ftp"] then web
  else other

/-- Whether a backslash divides segments as a slash does. -/
def hasBackslash (kind : SchemeKind) : Bool := kind != other

end SchemeKind

namespace Url

/-! ## Characters -/

def isControl (c : Char) : Bool := c.toNat < 0x20 || c.toNat == 0x7f

def isAscii (c : Char) : Bool := c.toNat < 0x80

def isSlash (c : Char) : Bool := c == '/' || c == '\\'

/-- Whether a character starts the query or the fragment. -/
def endsPath (c : Char) : Bool := c == '?' || c == '#'

/-- Drops controls and blanks around a reference, and line breaks and tabs within it. -/
def clean (chars : List Char) : List Char :=
  let outside (c : Char) : Bool := c.toNat ≤ 0x20
  let inner := ((chars.dropWhile outside).reverse.dropWhile outside).reverse
  inner.filter fun c => !(c == '\t' || c == '\n' || c == '\r')

/-- The bytes of a character, percent-encoded. -/
def percentEncode (c : Char) : List Char :=
  (String.singleton c).toUTF8.toList.flatMap fun byte =>
    '%' :: (Hexadecimal.byteText byte.toNat).toUpper.toList

/-- Characters that stand in no url. -/
def isEncoded (c : Char) : Bool := isControl c || !isAscii c

/-- Characters that stand in no path segment. -/
def isEncodedInPath (c : Char) : Bool := isEncoded c || " \"<>`#?\x7b\x7d".toList.contains c

def encode (encoded : Char → Bool) (chars : List Char) : String :=
  String.ofList (chars.flatMap fun c => if encoded c then percentEncode c else [c])

/-- The part of a reference before its query and fragment. -/
def pathPart (chars : List Char) : List Char := chars.takeWhile fun c => !endsPath c

/-! ## Schemes -/

/-- A scheme at the head of a reference, and what follows its colon. -/
def splitScheme? (chars : List Char) : Option (String × List Char) :=
  let name := chars.takeWhile fun c => c.isAlphanum || c == '+' || c == '-' || c == '.'
  if name.head?.any Char.isAlpha then
    match chars.drop name.length with
    | ':' :: rest => some ((String.ofList name).toLower, rest)
    | _ => none
  else none

end Url

end Stylesheet
