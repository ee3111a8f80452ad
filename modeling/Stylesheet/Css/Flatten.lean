import Stylesheet.Selector.Expansion
import Stylesheet.Sheet.Basic

/-!
# Flattening

A nested style rule becomes a list of style rules without nesting. The rule itself comes first with
what is left of its items; each rule nested in it follows in order, after the rules nested in that
one. Rules left without items are dropped.

* `FlatRule`: a style rule without nesting.
* `flattenRule`: the flat rules of an evaluated style rule.
-/

namespace Stylesheet

/-- A style rule with its expanded selector, without the style rules nested in it. -/
structure FlatRule where
  selector : Selector
  depth : Nat
  items : List Node

def Node.isStyleRule : Node → Bool
  | .block (.style _ _) _ => true
  | _ => false

/-- The items of a body that are no style rules. -/
def ownItems (body : List Node) : List Node := body.filter fun node => !node.isStyleRule

mutual

/-- The flat rules of a nested node; `chain` holds the selectors of the rules around it. -/
def flattenNode (chain : List Selector) : Node → Except CompileError (List FlatRule)
  | .block (.style s depth) body => do
    let selector ← Selector.expand (chain ++ [s])
    let nested ← flattenNodes (chain ++ [s]) body
    return nested ++ [⟨selector, depth, ownItems body⟩]
  | _ => .ok []

def flattenNodes (chain : List Selector) : List Node → Except CompileError (List FlatRule)
  | [] => .ok []
  | n :: ns => do
    let flat ← flattenNode chain n
    return flat ++ (← flattenNodes chain ns)

end

/-- The flat rules of a style rule. -/
def flattenRule (s : Selector) (depth : Nat) (body : List Node) :
    Except CompileError (List FlatRule) :=
  if s.hasParent then .error (.parentOutsideRule s.text)
  else do
    let nested ← flattenNodes [s] body
    return (⟨s, depth, ownItems body⟩ :: nested).filter fun flat => !flat.items.isEmpty

end Stylesheet
