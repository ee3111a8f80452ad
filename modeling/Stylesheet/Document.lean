import Stylesheet.Body
import Stylesheet.Css.Layout
import Stylesheet.Import.Path
import Stylesheet.Sheet.Reader

/-!
# Documents

A document is written item by item: comments, rules, and the documents that it imports. The items
are joined by newlines, and an item that writes nothing leaves no separator. A document that cannot
be imported leaves a comment in its place, and the document around it goes on.

* `Resolver`: opens the documents that imports name.
* `Writer`, `Writing`: what is kept from one document to the next, and work on it.
* `Page`: the text of a document so far.
* `writeDocument`: the text of a document.
-/

namespace Stylesheet

/-- Opens the documents that imports name. -/
structure Resolver where
  /-- The path that imports are joined onto. -/
  scopedPath : String := ""
  /-- The text of a document, if there is one. -/
  read : String → Option String

/-- What is kept from one document to the next. -/
structure Writer where
  session : Session := {}
  /-- The mixins of the documents so far. -/
  mixins : Registry := .empty

/-- Work on a writer that may fail. -/
abbrev Writing := ExceptT CompileError (StateM Writer)

def Writing.ofMetered {α : Type} (work : Metered α) : Writing α := fun w =>
  let (outcome, session) := work w.session
  (outcome, { w with session })

/-! ## Pages -/

/-- The text of a document so far. -/
structure Page where
  text : String := ""
  /-- Whether an item was written. -/
  started : Bool := false
  deriving DecidableEq

/-- Adds an item, after a newline if it is not the first one. -/
def Page.add (p : Page) (item : String) : Page :=
  if item.isEmpty then p
  else ⟨if p.started then p.text ++ "\n" ++ item else p.text ++ item, true⟩

/-! ## Failed imports -/

/-- A number in four columns. -/
def lineNumberText (n : Nat) : String :=
  let digits := Decimal.digits n
  String.ofList (List.replicate (4 - digits.length) ' ' ++ digits)

/-- A quoted source line; the one with the error is marked. -/
def quotedLine (position : Position) (line : SourceLine) : String :=
  "\n" ++ lineNumberText line.number ++ ". " ++
    (if line.number = position.line then "* " else "") ++ line.text

/-- What a failure says in place of an imported document. -/
def CompileError.report : CompileError → String
  | .malformed e => e.fault.message ++ String.join (e.lines.map (quotedLine e.position))
  | e => e.message

/-- What stands in the place of a document that failed: rules that blank the page, and a comment. -/
def importFailure (path : String) (e : CompileError) : String :=
  "\nbody, html \x7b background-color: red !important; \x7d" ++
    "\nbody * \x7b display: none; \x7d" ++
    "\n/* --- Parse Error in '" ++ path ++ "' : " ++ e.report ++ "\n*/"

/-- The rules that blank the page. -/
def blankingRules : String :=
  "\nbody, html \x7b background-color: red !important; \x7d" ++ "\nbody * \x7b display: none; \x7d"

/-- The rules, and one comment behind them. -/
theorem importFailure_eq (path : String) (e : CompileError) :
    importFailure path e =
      blankingRules ++ "\n/*" ++ (" --- Parse Error in '" ++ path ++ "' : " ++ e.report ++ "\n") ++
        "*/" := by
  have hopening : "\n/* --- Parse Error in '" = "\n/*" ++ " --- Parse Error in '" := by
    decide +kernel
  have hend : "\n*/" = "\n" ++ "*/" := by decide
  show blankingRules ++ "\n/* --- Parse Error in '" ++ path ++ "' : " ++ e.report ++ "\n*/" = _
  rw [hopening, hend]
  simp only [String.append_assoc]

def comment (text : String) : String := "/* " ++ text ++ " */"

/-- A text on a line of its own, unless there is none. -/
def onNewLine (text : String) : String := if text.isEmpty then "" else "\n" ++ text

/-! ## Items -/

section Write

variable (context : Context) (resolver : Option Resolver)

/-- The functions and mixins that a document can use. -/
def environment (w : Writer) : Environment := ⟨context.functions, [w.mixins, context.mixins]⟩

/-- The text of an evaluated rule. -/
def ruleText (rule : Node) (scope : Scope) : Writing String := do
  let env := environment context (← get)
  let nodes ← Writing.ofMetered (env.evalRule rule scope)
  match nodes.mapM (layoutRule context) with
  | .error e => throw e
  | .ok css => return Css.renderAll css.flatten

/-- The text of an imported document below its path, by way of `load` for documents that are
compiled. -/
def importedText (load : String → List Node → Scope → Writing String) (path text : String)
    (scope : Scope) : StateM Writer String := do
  if path.endsWith ("." ++ sourceExtension) then
    match Sheet.read text with
    | .error e => return importFailure path (.malformed e)
    | .ok sheet =>
      match ← (load path sheet.nodes scope.child).run with
      | .error e => return importFailure path e
      | .ok text => return onNewLine text
  else return onNewLine (Text.trimEnd text)

/-- The text of an import. It cannot fail. -/
def importItem (load : String → List Node → Scope → Writing String) (url : String)
    (scope : Scope) : StateM Writer String := do
  match resolver with
  | none => return importText url
  | some r =>
    match importPath? url r.scopedPath with
    | none => return importText url
    | some path =>
      match r.read path with
      | none => return comment path ++ "\n" ++ comment "NOT FOUND"
      | some text => return comment path ++ (← importedText load path text scope)

/-- Runs root items: the scope and the page after them. -/
abbrev RootRun := List Node → Scope × Page → Writing (Scope × Page)

/-- Runs the body of a loop once for each of the integers, all in one child scope. -/
def runRootLoop (run : Scope × Page → Writing (Scope × Page)) (counter : String) (scope : Scope)
    (page : Page) (range : List Int) : Writing Page := do
  let (_, page) ← range.foldlM (fun (inner, page) i =>
    run (inner.set counter (.number (Binary.ofInt i)), page)) (scope.child, page)
  return page

section Items

variable (load : String → List Node → Scope → Writing String) (enter : RootRun)

mutual

/-- Runs one root item. `load` compiles an imported document, and `enter` runs the body that an
inclusion stands for. -/
def rootNodeBy : Node → Scope × Page → Writing (Scope × Page)
  | .mixin _ _ _, s => pure s
  | .declaration _, s => pure s
  | .assignment a, (scope, page) => pure (scope.assign a, page)
  | .branch condition body otherwise, (scope, page) => do
    let env := environment context (← get)
    if ← Writing.ofMetered (env.chooseBranch scope condition) then rootNodesBy body (scope, page)
    else rootNodesBy otherwise (scope, page)
  | .loop counter first last inclusive body, (scope, page) => do
    let env := environment context (← get)
    let range ← Writing.ofMetered (env.loopRange scope first last inclusive)
    return (scope, ← runRootLoop (rootNodesBy body) counter scope page range)
  | .inclusion i, (scope, page) => do
    let env := environment context (← get)
    let body ← Writing.ofMetered (expandInclude env.layers scope i)
    enter body (scope, page)
  | .comment text, (scope, page) => pure (scope, page.add (comment text))
  | .importRule url, (scope, page) => do
    let text ← (importItem resolver load url scope : StateM Writer String)
    return (scope, page.add text)
  | .block head body, (scope, page) => do
    return (scope, page.add (← ruleText context (.block head body) scope))
  | .statement name prelude, (scope, page) => do
    return (scope, page.add (← ruleText context (.statement name prelude) scope))

def rootNodesBy : List Node → Scope × Page → Writing (Scope × Page)
  | [], s => pure s
  | n :: ns, s => do
    let s ← rootNodeBy n s
    rootNodesBy ns s

end

/-- Runs root items with room for so many inclusions inside of one another. -/
def rootNodesIn : Nat → RootRun
  | 0 => rootNodesBy context resolver load fun _ _ => throw (.limitExceeded .includes "")
  | n + 1 => rootNodesBy context resolver load (rootNodesIn n)

end Items

/-- Counts a document and registers its mixins. -/
def openDocument (path : String) (nodes : List Node) : Writing Unit := do
  Writing.ofMetered (Metered.countImport path)
  modify fun w => { w with mixins := w.mixins.registerAll nodes }

/-- Writes a document with room for so many imports inside of one another. -/
def documentIn : Nat → String → List Node → Scope → Writing String
  | 0, path, nodes, _ => do
    openDocument path nodes
    throw (.limitExceeded .imports path)
  | n + 1, path, nodes, scope => do
    openDocument path nodes
    let (_, page) ← rootNodesIn context resolver (documentIn n) Limit.includes.max nodes (scope, {})
    return page.text

/-- The text of a document that nothing imports. -/
def writeDocument (sheet : Sheet) : Writing String :=
  documentIn context resolver Limit.imports.max "" sheet.nodes context.scope.child

end Write

end Stylesheet
