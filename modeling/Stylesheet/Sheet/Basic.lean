import Stylesheet.Selector.Basic
import Stylesheet.Text.Position

/-!
# Sheets

A sheet is a list of nodes. Every rule with a body is a block with a head; what is left of a sheet
after evaluation consists of blocks, statements, imports and declarations only.

* `Head`: what stands before the brace of a block.
* `Node`: everything that can stand in a sheet or in a block.
* `Node.mapValues`: a node with its values replaced.
* `Node.containsInclude`, `Node.imports`, `Node.height`: what a node holds.
-/

namespace Stylesheet

structure Declaration where
  name : String
  value : Value
  position : Position

/-- The binding of a variable. -/
structure Assignment where
  name : String
  value : Value
  /-- Whether it binds only a variable that has no binding yet. -/
  isDefault : Bool

structure Parameter where
  name : String
  default : Option Value

/-- The use of a mixin. -/
structure Inclusion where
  name : String
  args : Option Value
  position : Position

inductive Head where
  /-- A style rule; `depth` counts the style rules around it and itself. -/
  | style (selector : Selector) (depth : Nat)
  | media (query : String)
  | fontFace
  | keyframes (name : String)
  /-- Any other at-rule. -/
  | atRule (name prelude : String)

inductive Node where
  | block (head : Head) (body : List Node)
  /-- An at-rule without a block. -/
  | statement (name prelude : String)
  | importRule (url : String)
  | declaration (d : Declaration)
  | assignment (a : Assignment)
  | comment (text : String)
  | mixin (name : String) (params : List Parameter) (body : List Node)
  | inclusion (i : Inclusion)
  | branch (condition : Value) (body otherwise : List Node)
  | loop (counter : String) (first last : Value) (inclusive : Bool) (body : List Node)

instance : Inhabited Node := ⟨.comment ""⟩

structure Sheet where
  nodes : List Node

/-- A named body with parameters. -/
structure Mixin where
  name : String
  params : List Parameter
  body : List Node

/-! ## Replacing values -/

def Head.mapValues (f : Value → Value) : Head → Head
  | .style selector depth => .style (selector.mapValues f) depth
  | head => head

namespace Node

mutual

/-- The node with every value replaced, those in selectors included. Mixins are left alone. -/
def mapValues (f : Value → Value) : Node → Node
  | .block head body => .block (head.mapValues f) (mapAllValues f body)
  | .declaration d => .declaration { d with value := f d.value }
  | .assignment a => .assignment { a with value := f a.value }
  | .inclusion i => .inclusion { i with args := i.args.map f }
  | .branch condition body otherwise =>
    .branch (f condition) (mapAllValues f body) (mapAllValues f otherwise)
  | .loop counter first last inclusive body =>
    .loop counter (f first) (f last) inclusive (mapAllValues f body)
  | .statement name prelude => .statement name prelude
  | .importRule url => .importRule url
  | .comment text => .comment text
  | .mixin name params body => .mixin name params body

def mapAllValues (f : Value → Value) : List Node → List Node
  | [] => []
  | n :: ns => mapValues f n :: mapAllValues f ns

end

/-! ## What a node holds -/

/-- The body of a block. -/
def body? : Node → Option (List Node)
  | .block _ body => some body
  | _ => none

mutual

/-- Whether an inclusion stands here or within nested style rules. -/
def containsInclude : Node → Bool
  | .inclusion _ => true
  | .block (.style _ _) body => anyContainsInclude body
  | _ => false

def anyContainsInclude : List Node → Bool
  | [] => false
  | n :: ns => containsInclude n || anyContainsInclude ns

end

mutual

/-- The urls of all imports within a node. -/
def imports : Node → List String
  | .importRule url => [url]
  | .block _ body => allImports body
  | .mixin _ _ body => allImports body
  | .branch _ body otherwise => allImports body ++ allImports otherwise
  | .loop _ _ _ _ body => allImports body
  | _ => []

def allImports : List Node → List String
  | [] => []
  | n :: ns => imports n ++ allImports ns

end

mutual

/-- How many blocks stand inside of one another. -/
def height : Node → Nat
  | .block _ body => heightAll body + 1
  | _ => 1

def heightAll : List Node → Nat
  | [] => 0
  | n :: ns => max (height n) (heightAll ns)

end

end Node

end Stylesheet
