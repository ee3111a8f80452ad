/-!
# Values

What stands after the colon of a declaration or an assignment, as a tree.

* `Quantity`: a number with a unit; `UnitKind` is the family that a unit belongs to.
* `Operator`: the binary operators, with their text and their binding strength.
* `Value`: the trees.
* `Value.mapReferences`: a tree with its variables replaced.
-/

namespace Stylesheet

/-! ## Quantities -/

/-- The family of a unit. Whether two quantities combine is decided on it, not on the unit. -/
inductive UnitKind where
  | number
  | length
  | percentage
  | angle
  | time
  | frequency
  | resolution
  | unknown
  deriving DecidableEq

namespace UnitKind

def lengthUnits : List String :=
  ["px", "em", "rem", "ex", "ch", "cap", "ic", "lh", "rlh", "vw", "vh", "vi", "vb", "vmin", "vmax",
    "dvw", "dvh", "svw", "svh", "lvw", "lvh", "cqw", "cqh", "cqi", "cqb", "cqmin", "cqmax", "cm",
    "mm", "q", "in", "pc", "pt"]

/-- The family of a unit name, in any letter case. -/
def ofName (name : String) : UnitKind :=
  let unit := name.toLower
  if unit = "" then .number
  else if unit = "%" then .percentage
  else if unit ∈ lengthUnits then .length
  else if unit ∈ ["deg", "grad", "rad", "turn"] then .angle
  else if unit ∈ ["s", "ms"] then .time
  else if unit ∈ ["hz", "khz"] then .frequency
  else if unit ∈ ["dpi", "dpcm", "dppx", "x"] then .resolution
  else .unknown

end UnitKind

/-- A number with a unit, which may be empty. -/
structure Quantity where
  number : Float
  unit : String := ""

def Quantity.kind (q : Quantity) : UnitKind := .ofName q.unit

/-! ## Operators -/

inductive Operator where
  | add
  | subtract
  | multiply
  | divide
  | modulo
  | equal
  | notEqual
  | greater
  | greaterEqual
  | less
  | lessEqual
  deriving DecidableEq

namespace Operator

def text : Operator → String
  | add => "+"
  | subtract => "-"
  | multiply => "*"
  | divide => "/"
  | modulo => "%"
  | equal => "=="
  | notEqual => "!="
  | greater => ">"
  | greaterEqual => ">="
  | less => "<"
  | lessEqual => "<="

def isComparison : Operator → Bool
  | add | subtract | multiply | divide | modulo => false
  | equal | notEqual | greater | greaterEqual | less | lessEqual => true

/-- Binding strength; a higher one binds tighter. -/
def precedence : Operator → Nat
  | multiply | divide | modulo => 3
  | add | subtract => 2
  | equal | notEqual | greater | greaterEqual | less | lessEqual => 1

end Operator

/-! ## Trees -/

/-- What stands between the items of a list. -/
inductive Separator where
  | space
  | comma
  deriving DecidableEq

inductive Value where
  /-- A number with a unit. -/
  | quantity (q : Quantity)
  /-- A keyword, a hexadecimal colour, a string with its quotes, or a url. -/
  | literal (text : String)
  | list (items : List Value) (separator : Separator)
  | call (name : String) (args : Value)
  /-- A variable. -/
  | reference (name : String)
  | binary (left : Value) (op : Operator) (right : Value)
  /-- Parts written with nothing between them. -/
  | joined (parts : List Value)
  | boolean (truth : Bool)
  /-- What a variable that has no binding stands for. -/
  | undefined (name : String)

namespace Value

instance : Inhabited Value := ⟨.list [] .space⟩

/-- A number without a unit. -/
def number (x : Float) : Value := .quantity { number := x }

/-- A space list, or its only item. -/
def ofComponents : List Value → Value
  | [v] => v
  | vs => .list vs .space

/-- A comma list, or its only item. -/
def ofGroups : List Value → Value
  | [v] => v
  | vs => .list vs .comma

def isUndefined : Value → Bool
  | undefined _ => true
  | _ => false

/-- Only the literal `true` is truthy. -/
def isTruthy : Value → Bool
  | boolean truth => truth
  | _ => false

/-! ## Replacing variables -/

section Replace

variable {m : Type → Type} [Monad m] (replace : String → m (Option Value))

mutual

/-- The tree with each variable passed through `replace`, from left to right. -/
def mapReferences : Value → m Value
  | .reference name => do return (← replace name).getD (.reference name)
  | .list items separator => do return .list (← mapAllReferences items) separator
  | .call name args => do return .call name (← mapReferences args)
  | .binary left op right => do
    let left ← mapReferences left
    return .binary left op (← mapReferences right)
  | .joined parts => do return .joined (← mapAllReferences parts)
  | .quantity q => pure (.quantity q)
  | .literal text => pure (.literal text)
  | .boolean truth => pure (.boolean truth)
  | .undefined name => pure (.undefined name)

def mapAllReferences : List Value → m (List Value)
  | [] => pure []
  | v :: vs => do
    let v ← mapReferences v
    return v :: (← mapAllReferences vs)

end

end Replace

/-- The tree with the variables that `bound` knows replaced. -/
def substitute (bound : String → Option Value) (v : Value) : Value :=
  Id.run (v.mapReferences fun name => pure (bound name))

end Value

end Stylesheet
