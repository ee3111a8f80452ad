import Mathlib
import Stylesheet.Compile

/-!
# Writing in place, step by step

The functions that write a document have room for so many inclusions, imports and levels of
evaluation, and answer with an error of the program when that is used up. A scribe does the same
work and knows of no such room. It is given a number of steps, how deep its calls may go; if these
do not suffice it has no result at all, so that a run ends if and only if some number of steps gives
a result.

A scribe writes on one desk: what it writes is added to the text there, an imported document is
written to an empty text that is put aside when it is done, and the targets that copies are made for
are changed and set back. It also keeps a history of what it does, as far as limits, registries and
resolvers are concerned.

* `Deed`, `Desk`, `Scribe`: the history, the state, and work on it.
* `Scribe.evaluate`, `Scribe.resolve`: values; `Scribe.expandInclude`: inclusions;
  `Scribe.evalNodes`: the items of a block; `Scribe.draw`: evaluated rules.
* `Scribe.rootNodes`, `Scribe.writeImport`, `Scribe.document`: documents.
-/

namespace Stylesheet

/-- What a session counts. -/
inductive Counter where
  | includes
  | imports
  | nodes
  deriving DecidableEq

def Counter.limit : Counter → Limit
  | includes => .includes
  | imports => .imports
  | nodes => .nodes

/-- Something that a scribe did. -/
inductive Deed where
  /-- An import asked for the document at a path. -/
  | asked (path : String)
  /-- A document was counted, and its items are written. -/
  | document (path : String)
  /-- An inclusion was counted, and its mixin is looked up. -/
  | lookedUp (name : String)
  /-- A copy of the body of a mixin was made. -/
  | body (name : String)
  /-- A declaration was counted, and is evaluated. -/
  | declaration (name : String)
  /-- A count exceeded its limit. -/
  | exceeded (counter : Counter)
  deriving DecidableEq

/-- The counter that bounds how often something is done. -/
def Deed.counter? : Deed → Option Counter
  | .document _ => some .imports
  | .body _ => some .includes
  | .declaration _ => some .nodes
  | _ => none

/-- How many deeds a counter bounds: documents written, bodies copied or declarations evaluated. -/
def tally (counter : Counter) (deeds : List Deed) : Nat :=
  deeds.countP fun deed => deed.counter? = some counter

/-- The body of the mixin of an inclusion with its parameters replaced. -/
def mixinBody (layers : List Registry) (scope : Scope) (i : Inclusion) :
    Except CompileError (List Node) :=
  match Registry.find? layers i.name with
  | none => .error (.mixinNotRegistered i.name)
  | some m => (m.bind i.args scope).map m.instantiate

/-- Reads the text of a document, and hands its items on in a scope of their own. -/
def readDocument {m : Type → Type} [Monad m] [MonadExcept CompileError m] {α : Type}
    (load : String → List Node → Scope → m α) (path text : String) (scope : Scope) : m α :=
  match Sheet.read text with
  | .error e => throw (.malformed e)
  | .ok sheet => load path sheet.nodes scope.child

structure Desk where
  writer : Writer := {}
  /-- The targets that copies are made for. -/
  targets : List Browser
  /-- What was written so far. -/
  out : String := ""
  history : List Deed := []

/-- Work at a desk that may fail, or have no result. -/
abbrev Scribe := ExceptT CompileError (StateT Desk Option)

namespace Scribe

/-! ## Small steps -/

section Steps

variable {α : Type}

def outOfSteps : Scribe α := fun _ => none

def ofMetered (work : Metered α) : Scribe α := fun d =>
  let (outcome, session) := work d.writer.session
  some (outcome, { d with writer := { d.writer with session } })

abbrev ofExcept (outcome : Except CompileError α) : Scribe α := MonadExcept.ofExcept outcome

/-- Does some work and goes on whether it fails or not. -/
def attempt (work : Scribe α) : Scribe (Except CompileError α) := fun d =>
  (work d).map fun (outcome, d) => (.ok outcome, d)

/-- Does some work one level deeper, and comes back whether it fails or not. -/
def nested (work : Scribe α) : Scribe α := do
  ofMetered Metered.descend
  let outcome ← attempt work
  ofMetered Metered.ascend
  ofExcept outcome

def record (deed : Deed) : Scribe Unit :=
  modify fun d => { d with history := d.history ++ [deed] }

/-- Counts something, and says in the history whether the limit allows it. -/
def counted (count : Metered Unit) (counter : Counter) (deed : Deed) : Scribe Unit := do
  match ← attempt (ofMetered count) with
  | .ok _ => record deed
  | .error e =>
    record (.exceeded counter)
    throw e

def setTargets (targets : List Browser) : Scribe Unit :=
  modify fun d => { d with targets }

def setText (out : String) : Scribe Unit :=
  modify fun d => { d with out }

/-- Adds to the text. -/
def push (text : String) : Scribe Unit :=
  modify fun d => { d with out := d.out ++ text }

end Steps

/-! ## Values -/

section Values

variable (functions : FunctionTable) (scope : Scope)

def evaluate : Nat → Value → Scribe Value
  | 0, _ => outOfSteps
  | n + 1, v => nested (evaluateBy functions scope (evaluate n) v)

def resolve : Nat → Value → Scribe Value
  | 0, _ => outOfSteps
  | n + 1, v => nested (resolveBy functions scope (evaluate functions scope n) (resolve n) v)

end Values

/-! ## Inclusions -/

section Inclusions

variable (layers : List Registry) (scope : Scope)

/-- Copies the body of the mixin of an inclusion; the inclusions in it are not yet replaced. -/
def copyBody (i : Inclusion) : Scribe (List Node) := do
  counted (Metered.countInclude i.name) .includes (.lookedUp i.name)
  let body ← ofExcept (mixinBody layers scope i)
  record (.body i.name)
  return body

def expandInclude : Nat → Inclusion → Scribe (List Node)
  | 0, _ => outOfSteps
  | n + 1, i => do
    let body ← copyBody layers scope i
    spliceNodes (expandInclude n) body

end Inclusions

/-! ## Items of a block -/

section Items

variable (env : Environment) (n : Nat)

def chooseBranch (scope : Scope) (condition : Value) : Scribe Bool := do
  return (← evaluate env.functions scope n condition).isTruthy

def evaluateNumber (scope : Scope) (v : Value) : Scribe Float := do
  let v ← evaluate env.functions scope n v
  ofExcept v.asNumber

def loopRange (scope : Scope) (first last : Value) (inclusive : Bool) : Scribe (List Int) := do
  let first ← evaluateNumber env n scope first
  let last ← evaluateNumber env n scope last
  match loopBounds (Binary.truncate first) (Binary.truncate last) inclusive with
  | .error e => throw e
  | .ok none => return []
  | .ok (some (first, last)) => return integers first last

def resolveHead (scope : Scope) : Head → Scribe Head
  | .style selector depth => do
    return .style (← selector.mapValuesM (resolve env.functions scope n)) depth
  | head => pure head

variable (enter : List Node → Scope → Scribe (List Node × Scope))

mutual

def evalNodeBy : Node → Scope → Scribe (List Node × Scope)
  | .declaration d, scope => do
    counted Metered.countNode .nodes (.declaration d.name)
    let value ← resolve env.functions scope n d.value
    return ([.declaration { d with value }], scope)
  | .assignment a, scope => pure ([], scope.assign a)
  | .branch condition body otherwise, scope => do
    if ← chooseBranch env n scope condition then evalNodesBy body scope
    else evalNodesBy otherwise scope
  | .loop counter first last inclusive body, scope => do
    let range ← loopRange env n scope first last inclusive
    return (← Environment.runLoop (evalNodesBy body) counter scope range, scope)
  | .inclusion i, scope => do
    let body ← expandInclude env.layers scope n i
    enter body scope
  | .block head body, scope => do
    let head ← resolveHead env n scope head
    let (body, _) ← evalNodesBy body scope.child
    return ([.block head body], scope)
  | .statement name prelude, scope => pure ([.statement name prelude], scope)
  | .importRule url, scope => pure ([.importRule url], scope)
  | .comment _, scope => pure ([], scope)
  | .mixin _ _ _, scope => pure ([], scope)

def evalNodesBy : List Node → Scope → Scribe (List Node × Scope)
  | [], scope => pure ([], scope)
  | node :: nodes, scope => do
    let (out, scope) ← evalNodeBy node scope
    let (rest, scope) ← evalNodesBy nodes scope
    return (out ++ rest, scope)

end

end Items

def evalNodes (env : Environment) : Nat → List Node → Scope → Scribe (List Node × Scope)
  | 0 => fun _ _ => outOfSteps
  | n + 1 => evalNodesBy env n (evalNodes env n)

/-! ## Evaluated rules -/

section Rules

variable (context : Context)

def drawBlockBy (draw : Node → Scribe (List Css)) (header : List String) (items : List Node) :
    Scribe Css := do
  let condensed := isCondensed context items (← get).targets
  let body ← items.mapM draw
  return .block header condensed body.flatten

/-- Makes copies for other targets; the targets are set back whether that fails or not. -/
def drawFor {α : Type} (targets : List Browser) (work : Scribe α) : Scribe α := do
  setTargets targets
  let outcome ← attempt work
  setTargets context.targets
  ofExcept outcome

def drawKeyframesBy (draw : Node → Scribe (List Css)) (name : String) (items : List Node) :
    Scribe (List Css) := do
  let copies ← (legacyTargets context.targets).mapM fun b => drawFor context [b]
    (drawBlockBy context draw ["@" ++ b.vendor.mark ++ "keyframes " ++ name] items)
  let standard ← drawFor context [] (drawBlockBy context draw ["@keyframes " ++ name] items)
  return copies ++ [standard]

def draw : Nat → Node → Scribe (List Css)
  | 0, _ => outOfSteps
  | n + 1, node =>
    let block := drawBlockBy context (draw n)
    match node with
    | .declaration d => do return layoutDeclaration context d (← get).targets
    | .statement name prelude => pure [.statement (atRuleText name prelude ++ ";")]
    | .importRule url => pure [.statement (importText url)]
    | .block (.style s depth) body => do
      let flat ← ofExcept (flattenRule s depth body)
      flat.mapM fun rule => block rule.selector.css rule.items
    | .block (.media query) body => do return [← block ["@media " ++ query] body]
    | .block .fontFace body => do return [← block ["@font-face"] body]
    | .block (.keyframes name) body => drawKeyframesBy context (draw n) name body
    | .block (.atRule name prelude) body => do return [← block [atRuleText name prelude] body]
    | _ => pure []

/-- The functions and mixins that the next item can use. -/
def currentEnvironment : Scribe Environment := do
  return environment context (← get).writer

/-- Evaluates a rule and writes it. -/
def writeRule (n : Nat) (rule : Node) (scope : Scope) : Scribe Unit := do
  let env ← currentEnvironment context
  let (nodes, _) ← evalNodes env n [rule] scope
  let css ← nodes.mapM (draw context n)
  push (Css.renderAll css.flatten)

end Rules

/-! ## Documents -/

/-- Writes an item of a document, after a newline if it is not the first one. If it writes nothing,
the newline goes again. Says whether the document has an item now. -/
def writeItem (started : Bool) (write : Scribe Unit) : Scribe Bool := do
  let before := (← get).out
  push (if started then "\n" else "")
  let lead := (← get).out
  write
  if (← get).out.length = lead.length then
    setText before
    return started
  else return true

section Documents

variable (context : Context) (resolver : Option Resolver)

/-- Registers the mixins of a document. -/
def register (nodes : List Node) : Scribe Unit :=
  modify fun d => { d with
    writer := { d.writer with mixins := d.writer.mixins.registerAll nodes } }

/-- Does some work on an empty text, while what was written before is kept aside; then writes what
came of it, or what stands in its place if it fails. -/
def contained (path : String) (work : Scribe Unit) : Scribe Unit := do
  let outer := (← get).out
  setText ""
  let outcome ← attempt work
  let inner := (← get).out
  setText outer
  match outcome with
  | .ok _ => push (onNewLine inner)
  | .error e => push (importFailure path e)

/-- Writes what was found at a path, by way of `load` for documents that are compiled. -/
def writeFound (load : String → List Node → Scope → Scribe Unit) (path : String) (scope : Scope) :
    Option String → Scribe Unit
  | none => push ("\n" ++ comment "NOT FOUND")
  | some text =>
    if path.endsWith ("." ++ sourceExtension) then
      contained path (readDocument load path text scope)
    else push (onNewLine (Text.trimEnd text))

def writeImportBy (load : String → List Node → Scope → Scribe Unit) (url : String)
    (scope : Scope) : Scribe Unit :=
  match resolver with
  | none => push (importText url)
  | some r =>
    match importPath? url r.scopedPath with
    | none => push (importText url)
    | some path => do
      push (comment path)
      record (.asked path)
      writeFound load path scope (r.read path)

section Items

variable (n : Nat) (load : String → List Node → Scope → Scribe Unit)
  (enter : List Node → Scope → Bool → Scribe (Scope × Bool))

def runRootLoop (run : Scope → Bool → Scribe (Scope × Bool)) (counter : String) (scope : Scope)
    (started : Bool) (range : List Int) : Scribe Bool := do
  let (_, started) ← range.foldlM (fun (inner, started) i =>
    run (inner.set counter (.number (Binary.ofInt i))) started) (scope.child, started)
  return started

mutual

def rootNodeBy : Node → Scope → Bool → Scribe (Scope × Bool)
  | .mixin _ _ _, scope, started => pure (scope, started)
  | .declaration _, scope, started => pure (scope, started)
  | .assignment a, scope, started => pure (scope.assign a, started)
  | .branch condition body otherwise, scope, started => do
    let env ← currentEnvironment context
    if ← chooseBranch env n scope condition then rootNodesBy body scope started
    else rootNodesBy otherwise scope started
  | .loop counter first last inclusive body, scope, started => do
    let env ← currentEnvironment context
    let range ← loopRange env n scope first last inclusive
    return (scope, ← runRootLoop (rootNodesBy body) counter scope started range)
  | .inclusion i, scope, started => do
    let env ← currentEnvironment context
    let body ← expandInclude env.layers scope n i
    enter body scope started
  | .comment text, scope, started => do
    return (scope, ← writeItem started (push (comment text)))
  | .importRule url, scope, started => do
    return (scope, ← writeItem started (writeImportBy resolver load url scope))
  | .block head body, scope, started => do
    return (scope, ← writeItem started (writeRule context n (.block head body) scope))
  | .statement name prelude, scope, started => do
    return (scope, ← writeItem started (writeRule context n (.statement name prelude) scope))

def rootNodesBy : List Node → Scope → Bool → Scribe (Scope × Bool)
  | [], scope, started => pure (scope, started)
  | node :: nodes, scope, started => do
    let (scope, started) ← rootNodeBy node scope started
    rootNodesBy nodes scope started

end

end Items

mutual

/-- Writes root items; says what scope they leave, and whether the document has an item. -/
def rootNodes : Nat → List Node → Scope → Bool → Scribe (Scope × Bool)
  | 0 => fun _ _ _ => outOfSteps
  | n + 1 => rootNodesBy context resolver n (document n) (rootNodes n)

/-- Counts a document, registers its mixins and writes its items. -/
def document : Nat → String → List Node → Scope → Scribe Unit
  | 0, _, _, _ => outOfSteps
  | n + 1, path, nodes, scope => do
    counted (Metered.countImport path) .imports (.document path)
    register nodes
    let _ ← rootNodes n nodes scope false

end

/-- Writes an import. -/
def writeImport (n : Nat) (url : String) (scope : Scope) : Scribe Unit :=
  writeImportBy resolver (document context resolver n) url scope

/-- Reads a source text and writes it. -/
def writeSource (n : Nat) (source : String) : Scribe Unit :=
  readDocument (document context resolver n) "" source context.scope

end Documents

end Scribe

end Stylesheet
