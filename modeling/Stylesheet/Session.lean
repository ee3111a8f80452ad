import Stylesheet.Error

/-!
# Sessions

A session counts the work of one compilation, across all of its documents. A count that exceeds its
limit fails and stays counted; the depth of evaluation goes up and down.

* `Metered`: work that counts and may fail; what was counted before a failure stays counted.
* `Metered.countInclude`, `Metered.countImport`, `Metered.countNode`.
* `Metered.nested`: work one level deeper.
* `wordBounds`, `loopBounds`: the integers that a loop runs over.
-/

namespace Stylesheet

structure Session where
  includes : Nat := 0
  imports : Nat := 0
  nodes : Nat := 0
  /-- How many evaluations are open. -/
  depth : Nat := 0
  deriving DecidableEq

/-- Work that counts and may fail. -/
abbrev Metered := ExceptT CompileError (StateM Session)

namespace Metered

/-- Fails if a count is above its limit. -/
def check (limit : Limit) (count : Nat) (detail : String) : Metered Unit :=
  if limit.max < count then throw (.limitExceeded limit detail) else pure ()

def countInclude (name : String) : Metered Unit := do
  modify fun s => { s with includes := s.includes + 1 }
  check .includes (← get).includes name

def countImport (path : String) : Metered Unit := do
  modify fun s => { s with imports := s.imports + 1 }
  check .imports (← get).imports path

def countNode : Metered Unit := do
  modify fun s => { s with nodes := s.nodes + 1 }
  check .nodes (← get).nodes ""

/-- Enters one more level of evaluation. -/
def descend : Metered Unit := do
  let s ← get
  if Limit.evaluationDepth.max ≤ s.depth then throw (.limitExceeded .evaluationDepth "")
  else set { s with depth := s.depth + 1 }

/-- Leaves a level of evaluation. -/
def ascend : Metered Unit :=
  modify fun s => { s with depth := s.depth - 1 }

/-- Does some work one level deeper, and comes back whether it fails or not. -/
def nested {α : Type} (work : Metered α) : Metered α := fun s =>
  match descend s with
  | (.error e, s) => (.error e, s)
  | (.ok _, s) =>
    let (outcome, s) := work s
    (outcome, (ascend s).2)

end Metered

/-! ## Loops -/

/-- The difference of two 64-bit integers, unless it overflows. -/
def checkedSub (a b : Int64) : Option Int64 :=
  if a.toBitVec.ssubOverflow b.toBitVec then none else some (a - b)

/-- The first and the last integer of a loop, or none if it has no iteration. All arithmetic has 64
bits, and a span that overflows is above the limit. -/
def wordBounds (first last : Int64) (inclusive : Bool) :
    Except CompileError (Option (Int64 × Int64)) :=
  if last < first then .error (.invalidLoopRange first.toInt last.toInt)
  else if (checkedSub last first).any (· ≤ .ofNat Limit.loopIterations.max) then
    let last := if inclusive then some last else checkedSub last 1
    .ok ((last.filter (first ≤ ·)).map (first, ·))
  else
    .error (.limitExceeded .loopIterations
      (Decimal.textInt first.toInt ++ " to " ++ Decimal.textInt last.toInt))

/-- The first and the last integer of a loop between integers that have 64 bits. -/
def loopBounds (first last : Int) (inclusive : Bool) : Except CompileError (Option (Int × Int)) :=
  (wordBounds first.toInt64 last.toInt64 inclusive).map
    (Option.map (Prod.map Int64.toInt Int64.toInt))

/-- The integers from the first to the last. -/
def integers (first last : Int) : List Int :=
  (List.range (last + 1 - first).toNat).map fun i : Nat => first + i

end Stylesheet
