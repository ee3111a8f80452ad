import Stylesheet.Scope
import Stylesheet.Session
import Stylesheet.Sheet.Basic

/-!
# Mixins

An inclusion is replaced by a copy of the body of its mixin, with the parameters replaced by their
values. Inclusions in the copy are replaced in turn, those in nested style rules too.

* `Registry`: mixins by name; several registries are layered.
* `Mixin.bind`: the values of the parameters.
* `expandInclude`, `expandIncludes`: one inclusion, or all those in a list of nodes.
-/

namespace Stylesheet

/-- Mixins by name. -/
abbrev Registry := Table Mixin

namespace Registry

/-- Adds a mixin, in place of one of the same name. -/
def register (r : Registry) (m : Mixin) : Registry := r.insert m.name m

/-- Adds the mixins that stand directly in a list of nodes. -/
def registerAll (r : Registry) (nodes : List Node) : Registry :=
  nodes.foldl (fun r node => match node with
    | .mixin name params body => r.register ⟨name, params, body⟩
    | _ => r) r

/-- Looks a mixin up in one registry after another. -/
def find? (layers : List Registry) (name : String) : Option Mixin :=
  layers.findSome? (·.get? name)

end Registry

/-! ## Parameters -/

/-- The value with its variables replaced by what they stand for. -/
def Value.resolveReferences (scope : Scope) (v : Value) : Except CompileError Value :=
  v.mapReferences fun name => some <$> scope.resolve name

/-- The arguments by position. -/
def positional : Option Value → List Value
  | none => []
  | some (.list items .comma) => items
  | some v => [v]

/-- Binds parameters to arguments. An argument means what it means in `scope`; a default may refer
to the parameters before it. -/
def bindParameters (scope : Scope) :
    List Parameter → List Value → Scope → Except CompileError Scope
  | [], _, bindings => .ok bindings
  | p :: ps, arg :: args, bindings => do
    let v ← arg.resolveReferences scope
    bindParameters scope ps args (bindings.set p.name v)
  | p :: ps, [], bindings => do
    let v ← match p.default with
      | some default => default.resolveReferences bindings
      | none => pure (.undefined p.name)
    bindParameters scope ps [] (bindings.set p.name v)

/-- The parameters of a mixin, bound in a child of `scope`. -/
def Mixin.bind (m : Mixin) (args : Option Value) (scope : Scope) : Except CompileError Scope :=
  bindParameters scope m.params (positional args) scope.child

/-- The body of a mixin with the names that are bound locally replaced. -/
def Mixin.instantiate (m : Mixin) (bindings : Scope) : List Node :=
  Node.mapAllValues (Value.substitute bindings.locals.get?) m.body

/-! ## Expansion -/

section Splice

variable {m : Type → Type} [Monad m] (expand : Inclusion → m (List Node))

mutual

/-- A node with its inclusions replaced, those in nested style rules too. -/
def spliceNode : Node → m (List Node)
  | .inclusion i => expand i
  | .block (.style selector depth) body => do
    return [.block (.style selector depth) (← spliceNodes body)]
  | node => pure [node]

def spliceNodes : List Node → m (List Node)
  | [] => pure []
  | n :: ns => do
    let nodes ← spliceNode n
    return nodes ++ (← spliceNodes ns)

end

end Splice

section Expand

variable (layers : List Registry) (scope : Scope)

/-- Expands with room for so many inclusions inside of one another. -/
def expandIncludeIn : Nat → Inclusion → Metered (List Node)
  | 0, i => do
    Metered.countInclude i.name
    throw (.limitExceeded .includes i.name)
  | n + 1, i => do
    Metered.countInclude i.name
    match Registry.find? layers i.name with
    | none => throw (.mixinNotRegistered i.name)
    | some m =>
      match m.bind i.args scope with
      | .error e => throw e
      | .ok bindings => spliceNodes (expandIncludeIn n) (m.instantiate bindings)

/-- The body that an inclusion stands for. -/
def expandInclude (i : Inclusion) : Metered (List Node) :=
  expandIncludeIn layers scope Limit.includes.max i

/-- The nodes with every inclusion replaced. -/
def expandIncludes (nodes : List Node) : Metered (List Node) :=
  spliceNodes (expandInclude layers scope) nodes

end Expand

end Stylesheet
