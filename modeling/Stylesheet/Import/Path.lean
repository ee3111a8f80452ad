import Stylesheet.Url.Join

/-!
# Paths of imports

* `importPath?`: the path of the document that an import names.
* `hasExtension`: whether a path ends in a name with an extension.
-/

namespace Stylesheet

/-- The extension of the documents that are compiled, and of paths that name none. -/
def sourceExtension : String := "scss"

/-- Whether an import names a document here rather than a url elsewhere. -/
def isLocalImport (url : String) : Bool := !url.contains ':'

/-- The url that all paths are joined onto. -/
def localRoot : Url := ⟨"https", .segments [""]⟩

/-- The last segment of a path, passing over empty segments and single dots. -/
def fileName? (path : String) : Option (List Char) :=
  ((Text.splitOn '/' path.toList).filter fun s => !(s.isEmpty || s == ['.'])).getLast?

/-- Whether a name has a dot that is not its first character, two dots alone aside. -/
def nameHasExtension (name : List Char) : Bool :=
  name != ['.', '.'] && (name.drop 1).contains '.'

def hasExtension (path : String) : Bool := (fileName? path).any nameHasExtension

def dropSlashes (path : String) : String := String.ofList (path.toList.dropWhile (· == '/'))

/-- The place that an import names, from the root. A url that starts with a slash is used as it is,
any other one is joined onto the scoped path. -/
def importPlace? (url scopedPath : String) : Option String :=
  if url.toList.head? = some '/' then some url
  else do
    let base ← localRoot.join (dropSlashes scopedPath)
    let joined ← base.join url
    return joined.path.text

/-- The path of the document that an import names, or nothing if it is not local. -/
def importPath? (url scopedPath : String) : Option String :=
  if isLocalImport url then do
    let path := dropSlashes (← importPlace? url scopedPath)
    return if hasExtension path then path else path ++ "." ++ sourceExtension
  else none

end Stylesheet
