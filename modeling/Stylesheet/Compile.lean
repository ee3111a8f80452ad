import Stylesheet.Document

/-!
# Compilation

* `compile`: the CSS of a source text.
* `Writing.source`: a source text as the next document of a writer.
-/

namespace Stylesheet

/-- Reads and writes a source text as the next document. -/
def Writing.source (context : Context) (resolver : Option Resolver) (source : String) :
    Writing String := do
  match Sheet.read source with
  | .error e => throw (.malformed e)
  | .ok sheet => writeDocument context resolver sheet

/-- The CSS of a source text. Local imports go through the resolver; without one they stay. -/
def compile (context : Context) (resolver : Option Resolver) (source : String) :
    Except CompileError String :=
  ((Writing.source context resolver source).run {}).1

end Stylesheet
