import Stylesheet.Builtin
import Stylesheet.Scope
import Stylesheet.Session
import Stylesheet.Value.Arithmetic

/-!
# Evaluation of values

There are two ways to reduce a value. Conditions and bounds are *evaluated* to one value; what is
written is *resolved*, where lists and joined values are reduced item by item and functions that are
not known keep their name.

* `evaluateBy`, `resolveBy`: what both do on one level.
* `evaluate`: the value of a condition, a bound or an operand.
* `arguments`, `call`: calls of known functions.
* `resolve`: the value that a declaration writes.

Every level of reduction counts towards the depth of the session. The functions with a count have
that many levels left, which the session never exceeds.
-/

namespace Stylesheet

/-- Reports a failure that no count goes with. -/
abbrev Metered.ofExcept {α : Type} (outcome : Except CompileError α) : Metered α :=
  MonadExcept.ofExcept outcome

/-- Too deep a value. -/
def tooDeep {α : Type} : Metered α := throw (.limitExceeded .evaluationDepth "")

/-- More levels than a session allows. -/
def levels : Nat := Limit.evaluationDepth.max + 1

/-! ## One level

What is done on one level of a value, in any monad with failures and by way of `reduce`, `evaluate`
and `resolve` for the levels below. -/

section Level

variable {m : Type → Type} [Monad m]

section Arguments

variable (reduce : Value → m Value)

mutual

/-- The arguments of a call. A comma list is several arguments and a space list is one; variables
and expressions are reduced, and anything else is taken as it is. -/
def argumentsBy : Value → m (List Value)
  | .list items .comma => allArgumentsBy items
  | .list [] .space => pure []
  | .reference name => do return [← reduce (.reference name)]
  | .binary left op right => do return [← reduce (.binary left op right)]
  | v => pure [v]

def allArgumentsBy : List Value → m (List Value)
  | [] => pure []
  | v :: vs => do
    let args ← argumentsBy v
    return args ++ (← allArgumentsBy vs)

end

end Arguments

variable [MonadExcept CompileError m] (functions : FunctionTable) (scope : Scope)

/-- The result of a call. -/
def callBy (reduce : Value → m Value) (name : String) (args : Value) : m Value := do
  match functions.get? name with
  | some f => return f (← argumentsBy reduce args)
  | none => throw (.functionNotRegistered name)

/-- Reduces a variable, an expression or a call; anything else is left as it is. -/
def evaluateBy (reduce : Value → m Value) : Value → m Value
  | .reference name => do
    let v ← MonadExcept.ofExcept (scope.resolve name)
    reduce v
  | .binary left op right => do
    let left ← reduce left
    let right ← reduce right
    MonadExcept.ofExcept (left.combine op right)
  | .call name args => callBy functions reduce name args
  | v => pure v

/-- Reduces a value that is written. -/
def resolveBy (evaluate resolve : Value → m Value) : Value → m Value
  | .reference name => do
    let v ← MonadExcept.ofExcept (scope.resolve name)
    resolve v
  | .binary left op right => evaluate (.binary left op right)
  | .call name args =>
    if functions.contains name then callBy functions evaluate name args
    else do return .call name (← resolve args)
  | .list items separator => do return .list (← items.mapM resolve) separator
  | .joined parts => do return .joined (← parts.mapM resolve)
  | v => pure v

section Calls

variable {functions scope} {evaluate resolve : Value → m Value} {name : String} {args : Value}

theorem resolveBy_call_of_contains (h : functions.contains name = true) :
    resolveBy functions scope evaluate resolve (.call name args) =
      callBy functions evaluate name args := by
  rw [resolveBy, if_pos h]

theorem resolveBy_call_of_not_contains (h : functions.contains name = false) :
    resolveBy functions scope evaluate resolve (.call name args) =
      do return .call name (← resolve args) := by
  rw [resolveBy, if_neg (by simp [h])]

end Calls

end Level

/-! ## Evaluation -/

section Evaluate

variable (functions : FunctionTable) (scope : Scope)

/-- Evaluates with so many levels left. -/
def evaluateIn : Nat → Value → Metered Value
  | 0, _ => tooDeep
  | n + 1, v => Metered.nested (evaluateBy functions scope (evaluateIn n) v)

/-- Reduces variables, expressions and calls of known functions. -/
def evaluate (v : Value) : Metered Value := evaluateIn functions scope levels v

/-- The arguments of a call. -/
def arguments (v : Value) : Metered (List Value) := argumentsBy (evaluate functions scope) v

/-- The result of a call. -/
def call (name : String) (args : Value) : Metered Value :=
  callBy functions (evaluate functions scope) name args

/-- A value that has to be a number. -/
def evaluateNumber (v : Value) : Metered Float := do
  let v ← evaluate functions scope v
  Metered.ofExcept v.asNumber

/-! ## Resolution -/

/-- Resolves with so many levels left. -/
def resolveIn : Nat → Value → Metered Value
  | 0, _ => tooDeep
  | n + 1, v =>
    Metered.nested (resolveBy functions scope (evaluate functions scope) (resolveIn n) v)

/-- Reduces a value to what is written. -/
def resolve (v : Value) : Metered Value := resolveIn functions scope levels v

end Evaluate

end Stylesheet
