import Stylesheet.Selector.Basic

/-!
# Plain CSS

What is written to a stylesheet, as a tree without nested style rules.

* `Css`: declarations, statements and blocks.
* `Css.render`: the text of a tree, indented to its level. A block that holds nothing but one
  declaration is condensed to one line.
* `Css.renderAll`: the texts of a list of trees, one newline between them.
-/

namespace Stylesheet

inductive Css where
  | declaration (name value : String)
  | statement (text : String)
  /-- `header` lists the alternatives of a selector, or holds the head of an at-rule. -/
  | block (header : List String) (condensed : Bool) (body : List Css)

namespace Css

instance : Inhabited Css := ⟨.statement ""⟩

/-- The blanks before an item. -/
def indent (level : Nat) : String := String.ofList (List.replicate (2 * level) ' ')

mutual

/-- The text of an item at a level. -/
def render (level : Nat) : Css → String
  | .declaration name value => indent level ++ name ++ ": " ++ value ++ ";"
  | .statement text => indent level ++ text
  | .block header condensed body =>
    indent level ++ (",\n" ++ indent level).intercalate header ++
      if condensed then " \x7b " ++ String.join (renderEach 0 body) ++ " \x7d"
      else
        " \x7b\n" ++ String.join ((renderEach (level + 1) body).map (· ++ "\n")) ++
          indent level ++ "\x7d"

/-- The texts of some items at a level. -/
def renderEach (level : Nat) : List Css → List String
  | [] => []
  | item :: items => render level item :: renderEach level items

end

theorem renderEach_eq_map (level : Nat) (items : List Css) :
    renderEach level items = items.map (render level) := by
  induction items with
  | nil => rfl
  | cons item items ih => rw [renderEach, ih, List.map_cons]

/-- The text of items at the root, one newline between them. -/
def renderAll (items : List Css) : String := "\n".intercalate (renderEach 0 items)

end Css

/-! ## Selectors -/

def Piece.css : Piece → String
  | .value v => v.css
  | piece => piece.text

/-- The alternatives of a selector as they are written. -/
def Selector.css (s : Selector) : List String :=
  s.alternatives.map fun alt => String.join (alt.map Piece.css)

end Stylesheet
