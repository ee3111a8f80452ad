import Stylesheet.Proofs.Css.Declarations

/-!
# Declarations in a text

The text of a tree is put together from its declarations, from its labels (the heads of blocks and
the statements) and from blanks, newlines, commas and braces between them. So each declaration of the
tree stands in the text once, and nothing else in it is a declaration that was written.

* `Spacing`, `TextPart`: what a text is put together from.
* `Spells`: the declarations and labels that a text is put together from, in order.
* `spells_render`, `spells_renderAll`: the texts of trees.
-/

namespace Stylesheet

/-- What stands between the declarations and labels of a text. -/
inductive Spacing where
  | indent (level : Nat)
  | newline
  | comma
  | opening (condensed : Bool)
  | closing (condensed : Bool)

def Spacing.text : Spacing → String
  | indent level => Css.indent level
  | newline => "\n"
  | comma => ",\n"
  | opening condensed => if condensed then " \x7b " else " \x7b\n"
  | closing condensed => if condensed then " \x7d" else "\x7d"

/-- A part of a text. -/
inductive TextPart where
  | spacing (g : Spacing)
  /-- The head of a block, a statement, a comment or an import. -/
  | label (text : String)
  | declaration (name value : String)

namespace TextPart

def text : TextPart → String
  | spacing g => g.text
  | label text => text
  | declaration name value => name ++ ": " ++ value ++ ";"

def label? : TextPart → Option String
  | label text => some text
  | _ => none

def declaration? : TextPart → Option (String × String)
  | declaration name value => some (name, value)
  | _ => none

end TextPart

/-- The text is put together from these declarations and labels, each of them once and in this order,
with spacing between them. -/
def Spells (text : String) (declarations : List (String × String)) (labels : List String) : Prop :=
  ∃ parts : List TextPart, text = String.join (parts.map TextPart.text) ∧
    parts.filterMap TextPart.declaration? = declarations ∧
    parts.filterMap TextPart.label? = labels

namespace Spells

variable {text text' : String} {ds ds' : List (String × String)} {ls ls' : List String}

theorem nil : Spells "" [] [] := ⟨[], rfl, rfl, rfl⟩

theorem spacing (g : Spacing) : Spells g.text [] [] :=
  ⟨[.spacing g], by simp [TextPart.text], rfl, rfl⟩

theorem label (text : String) : Spells text [] [text] :=
  ⟨[.label text], by simp [TextPart.text], rfl, rfl⟩

theorem declaration (name value : String) :
    Spells (name ++ ": " ++ value ++ ";") [(name, value)] [] :=
  ⟨[.declaration name value], by simp [TextPart.text], rfl, rfl⟩

theorem append (h : Spells text ds ls) (h' : Spells text' ds' ls') :
    Spells (text ++ text') (ds ++ ds') (ls ++ ls') := by
  obtain ⟨parts, rfl, rfl, rfl⟩ := h
  obtain ⟨parts', rfl, rfl, rfl⟩ := h'
  refine ⟨parts ++ parts', ?_, List.filterMap_append, List.filterMap_append⟩
  rw [List.map_append, String.join_append]

theorem after_spacing (g : Spacing) (h : Spells text ds ls) : Spells (g.text ++ text) ds ls :=
  (spacing g).append h

theorem before_spacing (h : Spells text ds ls) (g : Spacing) : Spells (text ++ g.text) ds ls := by
  have happend := h.append (spacing g)
  rwa [List.append_nil, List.append_nil] at happend

section Lists

variable {α : Type} {f : α → String} {d : α → List (String × String)} {l : α → List String}
  {items : List α}

theorem join (h : ∀ item ∈ items, Spells (f item) (d item) (l item)) :
    Spells (String.join (items.map f)) (items.flatMap d) (items.flatMap l) := by
  induction items with
  | nil => exact nil
  | cons item items ih =>
    obtain ⟨hitem, hitems⟩ := List.forall_mem_cons.1 h
    rw [List.map_cons, String.join_cons]
    exact hitem.append (ih hitems)

theorem intercalate {separator : String} (hseparator : Spells separator [] [])
    (h : ∀ item ∈ items, Spells (f item) (d item) (l item)) :
    Spells (separator.intercalate (items.map f)) (items.flatMap d) (items.flatMap l) := by
  induction items with
  | nil => exact nil
  | cons item items ih =>
    obtain ⟨hitem, hitems⟩ := List.forall_mem_cons.1 h
    cases items with
    | nil => simpa using hitem
    | cons next items =>
      rw [List.map_cons, List.map_cons, String.intercalate_cons_cons, String.append_assoc]
      exact hitem.append (hseparator.append (ih hitems))

end Lists

end Spells

namespace Css

mutual

/-- The heads of blocks and the statements, in order. -/
def labels : Css → List String
  | .declaration _ _ => []
  | .statement text => [text]
  | .block header _ body => header ++ allLabels body

def allLabels : List Css → List String
  | [] => []
  | item :: items => labels item ++ allLabels items

end

theorem allLabels_eq_flatMap (items : List Css) : allLabels items = items.flatMap labels := by
  induction items with
  | nil => rfl
  | cons item items ih => rw [allLabels, List.flatMap_cons, ih]

theorem spells_header (level : Nat) (header : List String) :
    Spells ((",\n" ++ indent level).intercalate header) [] header := by
  have hseparator : Spells (",\n" ++ indent level) [] [] :=
    (Spells.spacing .comma).before_spacing (.indent level)
  have hlines : Spells ((",\n" ++ indent level).intercalate (header.map id))
      (header.flatMap fun _ => []) (header.flatMap fun line => [line]) :=
    hseparator.intercalate fun line _ => .label line
  simpa [List.flatMap_eq_nil_iff.2] using hlines

mutual

/-- The text of a tree writes each of its declarations once. -/
theorem spells_render : (item : Css) → (level : Nat) →
    Spells (item.render level) item.declarations item.labels
  | .declaration name value, level => by
    have h := (Spells.declaration name value).after_spacing (.indent level)
    rw [Spacing.text, ← String.append_assoc, ← String.append_assoc, ← String.append_assoc] at h
    exact h
  | .statement text, level => (Spells.label text).after_spacing (.indent level)
  | .block header condensed body, level => by
    have hheader := (spells_header level header).after_spacing (.indent level)
    rw [render, declarations, labels, allDeclarations_eq_flatMap, allLabels_eq_flatMap]
    refine hheader.append ?_
    cases condensed with
    | true =>
      have hbody := Spells.join (spells_each body 0)
      rw [if_pos rfl, renderEach_eq_map]
      exact (hbody.after_spacing (.opening true)).before_spacing (.closing true)
    | false =>
      have hbody := Spells.join fun item hitem =>
        (spells_each body (level + 1) item hitem).before_spacing .newline
      rw [if_neg (by decide), renderEach_eq_map, List.map_map]
      exact ((hbody.after_spacing (.opening false)).before_spacing (.indent level)).before_spacing
        (.closing false)

theorem spells_each : (items : List Css) → (level : Nat) → ∀ item ∈ items,
    Spells (item.render level) item.declarations item.labels
  | [], _ => fun _ h => absurd h List.not_mem_nil
  | item :: items, level => List.forall_mem_cons.2 ⟨spells_render item level, spells_each items level⟩

end

theorem spells_renderAll (items : List Css) :
    Spells (renderAll items) (allDeclarations items) (allLabels items) := by
  have h := (Spells.spacing .newline).intercalate fun item hitem => spells_each items 0 item hitem
  rwa [← allDeclarations_eq_flatMap, ← allLabels_eq_flatMap, ← renderEach_eq_map] at h

end Css

end Stylesheet
