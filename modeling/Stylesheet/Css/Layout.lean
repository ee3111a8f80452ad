import Stylesheet.Context
import Stylesheet.Css.Basic
import Stylesheet.Css.Flatten

/-!
# Layout of evaluated rules

An evaluated rule becomes plain CSS: style rules are flattened, declarations get their vendor
copies, and keyframes are written once more for old targets.

* `Layout`: work that depends on the targets that copies are written for.
* `layoutRule`: the CSS of an evaluated rule.
-/

namespace Stylesheet

/-- Work on the list of targets that copies are written for, which may fail. -/
abbrev Layout := StateT (List Browser) (Except CompileError)

/-- Firefox versions before this one know keyframes with a mark only. -/
def firefoxKeyframes : Float32 := 16

/-- Safari versions before this one know keyframes with a mark only. -/
def safariKeyframes : Float32 := 9

/-- A target of a kind if its version lies strictly between zero and the given one. -/
def targetBelow (targets : List Browser) (kind : BrowserKind) (version : Float32) : List Browser :=
  let v := targetVersion targets kind
  if 0 < v ∧ v < version then [⟨kind, v⟩] else []

/-- The targets that keyframes are written once more for. -/
def legacyTargets (targets : List Browser) : List Browser :=
  targetBelow targets .firefox firefoxKeyframes ++ targetBelow targets .safari safariKeyframes

def importUrlText (url : String) : String := "url('" ++ url ++ "')"

/-- An import that is left to the browser. -/
def importText (url : String) : String := "@import " ++ importUrlText url ++ ";"

/-- The head of an at-rule. -/
def atRuleText (name prelude : String) : String :=
  if prelude.isEmpty then "@" ++ name else "@" ++ name ++ " " ++ prelude

section Layout

variable (context : Context)

/-- Writes copies for the given targets, and for all targets afterwards. -/
def withTargets {α : Type} (targets : List Browser) (work : Layout α) : Layout α := do
  set targets
  let a ← work
  set context.targets
  return a

/-- The copies of a declaration. -/
def copies (d : Declaration) (targets : List Browser) : List Patch :=
  match context.properties.get? d.name with
  | some info => info.patches d targets
  | none => []

/-- Whether a declaration gets copies. -/
def needsCopies (d : Declaration) (targets : List Browser) : Bool :=
  (context.properties.get? d.name).any (·.needsExpansion targets)

/-- A declaration with its copies ahead of it. -/
def layoutDeclaration (d : Declaration) (targets : List Browser) : List Css :=
  (copies context d targets).map (fun p => .declaration p.name p.value.css) ++
    [.declaration d.name d.value.css]

/-- Whether a block is written on one line. -/
def isCondensed (items : List Node) (targets : List Browser) : Bool :=
  match items with
  | [.declaration d] => !needsCopies context d targets
  | _ => false

/-- A block with the given head, by way of `layout` for its items. -/
def layoutBlockBy (layout : Node → Layout (List Css)) (header : List String) (items : List Node) :
    Layout Css := do
  let condensed := isCondensed context items (← get)
  let body ← items.mapM layout
  return .block header condensed body.flatten

/-- Keyframes: a copy for each old target, then the standard rule without any marks. -/
def layoutKeyframesBy (layout : Node → Layout (List Css)) (name : String) (items : List Node) :
    Layout (List Css) := do
  let copies ← (legacyTargets context.targets).mapM fun b => withTargets context [b]
    (layoutBlockBy context layout ["@" ++ b.vendor.mark ++ "keyframes " ++ name] items)
  let standard ← withTargets context []
    (layoutBlockBy context layout ["@keyframes " ++ name] items)
  return copies ++ [standard]

/-- The CSS of a node that holds blocks at most `n` deep. Only declarations and rules are left after
evaluation; any other node writes nothing. -/
def layoutIn : (n : Nat) → Node → Layout (List Css)
  | 0, _ => pure []
  | n + 1, node =>
    let block := layoutBlockBy context (layoutIn n)
    match node with
    | .declaration d => do return layoutDeclaration context d (← get)
    | .statement name prelude => pure [.statement (atRuleText name prelude ++ ";")]
    | .importRule url => pure [.statement (importText url)]
    | .block (.style s depth) body => do
      let flat ← (flattenRule s depth body : Except CompileError (List FlatRule))
      flat.mapM fun rule => block rule.selector.css rule.items
    | .block (.media query) body => do return [← block ["@media " ++ query] body]
    | .block .fontFace body => do return [← block ["@font-face"] body]
    | .block (.keyframes name) body => layoutKeyframesBy context (layoutIn n) name body
    | .block (.atRule name prelude) body => do return [← block [atRuleText name prelude] body]
    | _ => pure []

/-- The CSS of an evaluated rule. -/
def layoutRule (rule : Node) : Except CompileError (List Css) := do
  return (← (layoutIn context rule.height rule).run context.targets).1

end Layout

end Stylesheet
