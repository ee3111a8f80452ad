import Stylesheet.Text.Split
import Stylesheet.Url.Basic

/-!
# Paths of urls

A path is read segment by segment onto the path that is there already, whose last segment is still
open: what is read first continues it. Dot segments are folded away on the spot.

* `Url.addSegment`: reads one segment.
* `Url.readPath`: reads the path of a reference up to its query.
-/

namespace Stylesheet.Url

/-! ## Kinds of segments -/

/-- A segment that stands for the place itself. -/
def isDot (segment : String) : Bool := segment.toLower ∈ [".", "%2e"]

/-- A segment that stands for the place above. -/
def isDoubleDot (segment : String) : Bool :=
  segment.toLower ∈ ["..", ".%2e", "%2e.", "%2e%2e"]

/-- A letter and a colon or bar, which may name a drive. -/
def isDrive (segment : String) : Bool :=
  match segment.toList with
  | [c, d] => c.isAlpha && (d == ':' || d == '|')
  | _ => false

/-- A drive as it is written in a path. -/
def isNamedDrive (segment : String) : Bool :=
  match segment.toList with
  | [c, d] => c.isAlpha && d == ':'
  | _ => false

/-- The name of a drive, with a colon in the place of a bar. -/
def driveName (segment : String) : String := String.ofList (segment.toList.take 1 ++ [':'])

/-- Whether a drive stands before a slash, the query or the end. -/
def startsWithDrive : List Char → Bool
  | c :: d :: rest =>
    c.isAlpha && (d == ':' || d == '|') && rest.head?.all fun e => isSlash e || endsPath e
  | _ => false

/-! ## Reading segments -/

/-- Continues the last segment of a path. -/
def extend (path : List String) (text : String) : List String :=
  match path.getLast? with
  | none => if text.isEmpty then [] else [text]
  | some last => path.dropLast ++ [last ++ text]

/-- Opens a new segment. -/
def openSegment (path : List String) : List String := path ++ [""]

/-- Whether the last segment is open and empty. -/
def endsInSlash (path : List String) : Bool := path.getLast? = some ""

/-- Empties the last segment. A file keeps its drive. -/
def shorten (kind : SchemeKind) (path : List String) : List String :=
  if path.isEmpty ∨ (kind = .file ∧ path.getLast?.any isNamedDrive) then path
  else openSegment path.dropLast

/-- Goes to the place above the one whose segment is open. A drive has nothing above it. -/
def goUp (kind : SchemeKind) (path : List String) : List String :=
  match path.reverse with
  | "" :: last :: above =>
    if isDrive last then shorten kind path else shorten kind (last :: above).reverse
  | _ => shorten kind path

/-- Reads one segment; `more` says that a slash follows it. In a file the first segment may name a
drive, and a segment after a drive alone is divided from it. -/
def addSegment (kind : SchemeKind) (path : List String) (segment : String) (more : Bool) :
    List String :=
  let path :=
    match kind, path with
    | .file, [drive] => if !segment.isEmpty && isNamedDrive drive then [drive, ""] else [drive]
    | _, path => path
  if isDoubleDot segment then
    let path := goUp kind path
    if more && !endsInSlash path then openSegment path else path
  else if isDot segment then
    if endsInSlash path then path else openSegment path
  else
    let isFirst := kind = .file ∧ path = [""]
    let path := extend path (if isFirst ∧ isDrive segment then driveName segment else segment)
    if more then openSegment path else path

/-- Reads segments with slashes between them. -/
def addSegments (kind : SchemeKind) (path : List String) : List String → List String
  | [] => path
  | [segment] => addSegment kind path segment false
  | segment :: rest => addSegments kind (addSegment kind path segment true) rest

/-- The encoded segments of a reference up to its query. -/
def segmentsOf (kind : SchemeKind) (chars : List Char) : List String :=
  let chars := (pathPart chars).map fun c => if kind.hasBackslash && c == '\\' then '/' else c
  (Text.splitOn '/' chars).map (encode isEncodedInPath)

/-- A path without the empty segments at its head; one segment stays. -/
def dropEmpty (path : List String) : List String :=
  match path.dropWhile String.isEmpty with
  | [] => [""]
  | path => path

/-- Reads the path of a reference up to its query. The path of a file has no empty segments at its
head. -/
def readPath (kind : SchemeKind) (path : List String) (chars : List Char) : List String :=
  let path := addSegments kind path (segmentsOf kind chars)
  if kind = .file then dropEmpty path else path

end Stylesheet.Url
