import Stylesheet.Evaluation
import Stylesheet.Mixin

/-!
# Evaluation of rules

The items of a block run in order. Assignments bind as they are reached, conditions and loops run
their bodies, inclusions run the body of their mixin; what is left are declarations with resolved
values and evaluated rules.

* `Environment`: the functions and mixins that a rule can use.
* `chooseBranch`, `loopRange`: what a condition or a loop runs.
* `evalNodes`: the items of a block; `evalRule`: one rule.
-/

namespace Stylesheet

structure Environment where
  functions : FunctionTable
  /-- The registries that inclusions are looked up in, the first one first. -/
  layers : List Registry

namespace Environment

variable (env : Environment)

/-- The branch that a condition chooses. -/
def chooseBranch (scope : Scope) (condition : Value) : Metered Bool := do
  return (← evaluate env.functions scope condition).isTruthy

/-- The integers that a loop runs over. -/
def loopRange (scope : Scope) (first last : Value) (inclusive : Bool) : Metered (List Int) := do
  let first ← evaluateNumber env.functions scope first
  let last ← evaluateNumber env.functions scope last
  match loopBounds (Binary.truncate first) (Binary.truncate last) inclusive with
  | .error e => throw e
  | .ok none => return []
  | .ok (some (first, last)) => return integers first last

/-- The head of a block with the values in its selector resolved. -/
def resolveHead (scope : Scope) : Head → Metered Head
  | .style selector depth => do
    return .style (← selector.mapValuesM (resolve env.functions scope)) depth
  | head => pure head

/-- Runs the items of a block: what is left of them, and the scope after them. -/
abbrev Run := List Node → Scope → Metered (List Node × Scope)

/-- Runs the body of a loop once for each of the integers, all in one child scope. -/
def runLoop {m : Type → Type} [Monad m] (run : Scope → m (List Node × Scope)) (counter : String)
    (scope : Scope) (range : List Int) : m (List Node) := do
  let (parts, _) ← range.foldlM (fun (parts, inner) i => do
    let (nodes, inner) ← run (inner.set counter (.number (Binary.ofInt i)))
    return (nodes :: parts, inner)) (([] : List (List Node)), scope.child)
  return parts.reverse.flatten

/-! ## Items

`enter` runs the body that an inclusion stands for. -/

section Items

variable (enter : Run)

mutual

def evalNodeBy : Node → Scope → Metered (List Node × Scope)
  | .declaration d, scope => do
    Metered.countNode
    let value ← resolve env.functions scope d.value
    return ([.declaration { d with value }], scope)
  | .assignment a, scope => pure ([], scope.assign a)
  | .branch condition body otherwise, scope => do
    if ← env.chooseBranch scope condition then evalNodesBy body scope
    else evalNodesBy otherwise scope
  | .loop counter first last inclusive body, scope => do
    let range ← env.loopRange scope first last inclusive
    return (← runLoop (evalNodesBy body) counter scope range, scope)
  | .inclusion i, scope => do
    let body ← expandInclude env.layers scope i
    enter body scope
  | .block head body, scope => do
    let head ← env.resolveHead scope head
    let (body, _) ← evalNodesBy body scope.child
    return ([.block head body], scope)
  | .statement name prelude, scope => pure ([.statement name prelude], scope)
  | .importRule url, scope => pure ([.importRule url], scope)
  | .comment _, scope => pure ([], scope)
  | .mixin _ _ _, scope => pure ([], scope)

def evalNodesBy : List Node → Scope → Metered (List Node × Scope)
  | [], scope => pure ([], scope)
  | n :: ns, scope => do
    let (nodes, scope) ← evalNodeBy n scope
    let (rest, scope) ← evalNodesBy ns scope
    return (nodes ++ rest, scope)

end

end Items

/-- Runs items with room for so many inclusions inside of one another. -/
def evalNodesIn : Nat → Run
  | 0 => env.evalNodesBy fun _ _ => throw (.limitExceeded .includes "")
  | n + 1 => env.evalNodesBy (evalNodesIn n)

/-- Runs the items of a block: what is left of them, and the scope after them. -/
def evalNodes : Run := env.evalNodesIn Limit.includes.max

/-- What a rule is evaluated to. -/
def evalRule (rule : Node) (scope : Scope) : Metered (List Node) := do
  return (← env.evalNodes [rule] scope).1

end Environment

end Stylesheet
