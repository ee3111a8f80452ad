import Stylesheet.Url.Authority

/-!
# Joining urls

A reference is read against a base url by the rules of browsers: white space and controls around it
and line breaks within it are dropped, dot segments are folded away, and characters that a path
cannot hold are percent-encoded.

* `Url.joinRelative?`, `Url.joinFile?`, `Url.joinAbsolute?`: references without a scheme, to files,
  and with a scheme.
* `Url.join`: a reference read against a base.
-/

namespace Stylesheet.Url

/-- A reference without a scheme against the path of a base that is not a file. -/
def joinRelative? (kind : SchemeKind) (base : List String) (chars : List Char) :
    Option (List String) :=
  match chars with
  | [] => some base
  | c :: rest =>
    if endsPath c then some base
    else if isSlash c then
      let slashes := chars.takeWhile isSlash
      if 2 ≤ slashes.length then
        let skipped := if slashes.take 2 = ['/', '/'] then 2 else slashes.length
        Authority.read? kind (chars.drop skipped)
      else some (readPath kind [""] rest)
    else
      let above := shorten kind base
      some (readPath kind (if above.isEmpty then [""] else above) chars)

/-- The path of a file after two slashes. What stands there is a host, unless it is a drive. -/
def fileAfterSlashes? (chars : List Char) : Option (List String) :=
  let host := chars.takeWhile fun c => !(isSlash c || endsPath c)
  let rest := chars.drop host.length
  if isDrive (String.ofList host) then some (readPath .file [""] chars)
  else if host.isEmpty then some (readPath .file [""] rest)
  else do
    if (← Host.read? host).isLocal then return readPath .file [""] rest
    return Authority.pathAfter .file rest

/-- The drive of the path of a file. -/
def drive? (path : List String) : Option String :=
  path.head?.filter isNamedDrive

/-- A reference to a file, after its scheme, against the path of a base that is a file. -/
def joinFile? (base : Option (List String)) (chars : List Char) : Option (List String) :=
  match chars with
  | [] => some (base.getD [""])
  | c :: rest =>
    if isSlash c then
      match rest with
      | d :: rest' =>
        if isSlash d then fileAfterSlashes? rest'
        else
          let drive := if startsWithDrive rest then none else base.bind drive?
          some (readPath .file drive.toList chars)
      | [] => some (readPath .file (base.bind drive?).toList chars)
    else
      match base with
      | none => some (readPath .file [""] chars)
      | some path =>
        if endsPath c then some path
        else if startsWithDrive chars then some (readPath .file [""] chars)
        else some (readPath .file (shorten .file path) chars)

/-- A reference with a scheme of its own. -/
def joinAbsolute? (base : Url) (scheme : String) (chars : List Char) : Option UrlPath :=
  let same? : Option (List String) :=
    match base.path with
    | .segments items => if base.scheme = scheme then some items else none
    | .whole _ => none
  match SchemeKind.ofScheme scheme with
  | .file => (joinFile? same? chars).map .segments
  | .web =>
    match same? with
    | some items =>
      if (chars.takeWhile isSlash).length < 2 then
        (joinRelative? .web items chars).map .segments
      else (Authority.read? .web (chars.dropWhile isSlash)).map .segments
    | none => (Authority.read? .web (chars.dropWhile isSlash)).map .segments
  | .other =>
    match chars with
    | '/' :: '/' :: rest => (Authority.read? .other rest).map .segments
    | '/' :: rest => some (.segments (readPath .other [""] rest))
    | _ => some (.whole (encode isEncoded (pathPart chars)))

/-- A reference read against a base, or nothing if it names no url. -/
def join (base : Url) (reference : String) : Option Url :=
  let chars := clean reference.toList
  match splitScheme? chars with
  | some (scheme, rest) => (joinAbsolute? base scheme rest).map fun path => ⟨scheme, path⟩
  | none =>
    if chars.head? = some '#' then some base
    else
      match base.path with
      | .whole _ => none
      | .segments items =>
        let kind := SchemeKind.ofScheme base.scheme
        let path? :=
          if kind = .file then joinFile? (some items) chars else joinRelative? kind items chars
        path?.map fun path => ⟨base.scheme, .segments path⟩

end Stylesheet.Url
