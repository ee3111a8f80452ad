import Stylesheet.Builtin
import Stylesheet.Mixin
import Stylesheet.Target.Property

/-!
# Contexts

Everything that a compilation reads and never changes.
-/

namespace Stylesheet

structure Context where
  /-- The browsers to write for. -/
  targets : List Browser := []
  /-- Mixins that every document can include. -/
  mixins : Registry := .empty
  functions : FunctionTable := .builtins
  properties : PropertyTable := .standard
  /-- Variables that are bound from the start. -/
  globals : Frame := .empty

namespace Context

instance : Inhabited Context := ⟨{}⟩

/-- The scope around every document. -/
def scope (c : Context) : Scope := { locals := c.globals }

end Context

end Stylesheet
