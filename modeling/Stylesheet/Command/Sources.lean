import Stylesheet.Command.Basic

/-!
# Files that a build reads

A build reads its configuration, its input and, one after the other, every document that an import
names. `missingFiles` lists those that a table of files read so far does not have yet; once it is
empty, the build can be planned from the table alone.
-/

namespace Stylesheet

/-- Files read so far, by path. -/
abbrev Sources := Table (Except FileError String)

namespace Sources

/-- The text of a file. -/
def read (s : Sources) (path : String) : Except FileError String :=
  (s.get? path).getD (.error .notFound)

end Sources

/-- The paths of all imports in a text that is compiled in a directory. -/
def importedFiles (directory text : String) : List String :=
  match Sheet.read text with
  | .error _ => []
  | .ok sheet =>
    (Node.allImports sheet.nodes).filterMap fun url => (importPath? url "").map (directory ++ ·)

/-- The files that a build reads next. -/
def missingFiles (s : Sources) (input : String) (o : BuildOptions) : List String :=
  let documents := s.entries.filterMap fun (path, text) =>
    if some path = o.config then none else text.toOption
  let wanted := o.config.toList ++ [input] ++ documents.flatMap (importedFiles (directoryOf input))
  (wanted.filter fun path => !s.contains path).eraseDups

end Stylesheet
