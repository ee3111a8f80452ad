import Mathlib
import Stylesheet.Proofs.Token.Cutting

/-!
# Trees of plain rules

Plain rules hold declarations and further rules. Their selectors are lists of alternatives of words,
and their values are comma lists of space lists of identifiers.

* `Row`: a list with at least one item; `Ident`, `Word`: what plain rules are made of.
* `Body`, `Tree`: what stands in a rule, and a rule that stands in no other.
* `Tree.layouts`: the texts that a tree can be written as in a source; `Tree.print`: one of them.
* `Tree.rules`, `sheetText`: the flat rules of a tree, and the text of a sheet of flat rules.
-/

namespace Stylesheet.Nesting

/-- A list with at least one item. -/
structure Row (α : Type) where
  first : α
  more : List α

def Row.toList {α : Type} (row : Row α) : List α := row.first :: row.more

/-- An ASCII identifier. -/
structure Ident where
  text : String
  isIdent : isIdentText text.toList = true

/-- A word of a selector. -/
structure Word where
  text : String
  isWord : isWordText text.toList = true

/-- What stands in a rule. -/
inductive Body where
  | nil
  | declaration (name : Ident) (value : Row (Row Ident)) (rest : Body)
  | rule (selector : Row (Row Word)) (inner rest : Body)

/-- A rule that stands in no other rule. -/
structure Tree where
  selector : Row (Row Word)
  body : Body

theorem Ident.length_ne_zero (i : Ident) : i.text.toList.length ≠ 0 := by
  intro h
  have hident := i.isIdent
  rw [List.eq_nil_of_length_eq_zero h] at hident
  cases hident

theorem Word.length_ne_zero (w : Word) : w.text.toList.length ≠ 0 := by
  intro h
  have hword := w.isWord
  rw [List.eq_nil_of_length_eq_zero h] at hword
  cases hword

/-! ## Sizes -/

/-- How many rules stand inside of one another. -/
def Body.depth : Body → Nat
  | .nil => 0
  | .declaration _ _ rest => rest.depth
  | .rule _ inner rest => max (inner.depth + 1) rest.depth

def Tree.depth (t : Tree) : Nat := t.body.depth + 1

/-- Whether a selector has several alternatives, as a number. -/
def listCount (selector : Row (Row Word)) : Nat := if selector.more.isEmpty then 0 else 1

/-- The most selectors with several alternatives on a way down. -/
def Body.lists : Body → Nat
  | .nil => 0
  | .declaration _ _ rest => rest.lists
  | .rule selector inner rest => max (listCount selector + inner.lists) rest.lists

def Tree.lists (t : Tree) : Nat := listCount t.selector + t.body.lists

/-- The number of declarations. -/
def Body.size : Body → Nat
  | .nil => 0
  | .declaration _ _ rest => rest.size + 1
  | .rule _ inner rest => inner.size + rest.size

/-! ## Sources -/

/-- Some spaces and newlines. -/
def blank : Language Char := {gap | gap ≠ [] ∧ IsGap gap}

/-- A text and nothing else. -/
def exactly (text : String) : Language Char := {text.toList}

/-- The items of a row with something between them. -/
def Row.layouts {α : Type} (between : Language Char) (layouts : α → Language Char) (row : Row α) :
    Language Char :=
  layouts row.first * (row.more.map fun a => between * layouts a).prod

/-- Rows of texts: blanks between the texts, and a comma with blanks between the rows. -/
def rowsLayouts {α : Type} (text : α → String) (rows : Row (Row α)) : Language Char :=
  rows.layouts (exactly "," * blank) fun row => row.layouts blank fun a => exactly (text a)

def ruleLayouts (selector : Row (Row Word)) (inner : Language Char) : Language Char :=
  rowsLayouts Word.text selector * blank * exactly "\x7b" * blank * inner * exactly "\x7d"

def declarationLayouts (name : Ident) (value : Row (Row Ident)) : Language Char :=
  exactly name.text * exactly ":" * blank * rowsLayouts Ident.text value * exactly ";" * blank

def Body.layouts : Body → Language Char
  | .nil => 1
  | .declaration name value rest => declarationLayouts name value * rest.layouts
  | .rule selector inner rest => ruleLayouts selector inner.layouts * rest.layouts

def Tree.layouts (t : Tree) : Language Char := ruleLayouts t.selector t.body.layouts

/-! ### One layout of each tree -/

section Print

variable (gap : List Char)

def Row.print {α : Type} (between : List Char) (print : α → List Char) (row : Row α) : List Char :=
  print row.first ++ (row.more.map fun a => between ++ print a).flatten

def printRows {α : Type} (text : α → String) (rows : Row (Row α)) : List Char :=
  rows.print (",".toList ++ gap) fun row => row.print gap fun a => (text a).toList

def printRule (selector : Row (Row Word)) (inner : List Char) : List Char :=
  printRows gap Word.text selector ++ gap ++ "\x7b".toList ++ gap ++ inner ++ "\x7d".toList

def printDeclaration (name : Ident) (value : Row (Row Ident)) : List Char :=
  name.text.toList ++ ":".toList ++ gap ++ printRows gap Ident.text value ++ ";".toList ++ gap

def Body.print : Body → List Char
  | .nil => []
  | .declaration name value rest => printDeclaration gap name value ++ rest.print
  | .rule selector inner rest => printRule gap selector inner.print ++ rest.print

/-- The layout of a tree with the same blanks everywhere. -/
def Tree.print (t : Tree) : List Char := printRule gap t.selector (t.body.print gap)

end Print

section Print

open Language

variable {gap : List Char} (hgap : gap ∈ blank)

theorem toList_mem_exactly (text : String) : text.toList ∈ exactly text := rfl

theorem Row.print_mem_layouts {α : Type} {between : List Char} {betweens : Language Char}
    {print : α → List Char} {layouts : α → Language Char} (hbetween : between ∈ betweens)
    (hprint : ∀ a, print a ∈ layouts a) (row : Row α) :
    row.print between print ∈ row.layouts betweens layouts := by
  refine append_mem_mul (hprint row.first) ?_
  induction row.more with
  | nil => exact nil_mem_one
  | cons a more ih =>
    rw [List.map_cons, List.map_cons, List.flatten_cons, List.prod_cons]
    exact append_mem_mul (append_mem_mul hbetween (hprint a)) ih

include hgap

theorem printRows_mem_layouts {α : Type} (text : α → String) (rows : Row (Row α)) :
    printRows gap text rows ∈ rowsLayouts text rows := by
  refine rows.print_mem_layouts (append_mem_mul (toList_mem_exactly ",") hgap) ?_
  intro row
  exact row.print_mem_layouts hgap fun a => toList_mem_exactly (text a)

theorem printRule_mem_layouts {inner : List Char} {layouts : Language Char} (h : inner ∈ layouts)
    (selector : Row (Row Word)) : printRule gap selector inner ∈ ruleLayouts selector layouts := by
  have hhead := append_mem_mul (printRows_mem_layouts hgap Word.text selector) hgap
  exact append_mem_mul (append_mem_mul (append_mem_mul (append_mem_mul hhead rfl) hgap) h) rfl

theorem Body.print_mem_layouts (body : Body) : body.print gap ∈ body.layouts := by
  induction body with
  | nil => exact nil_mem_one
  | declaration name value rest ih =>
    have hvalue := printRows_mem_layouts hgap Ident.text value
    have hname : name.text.toList ++ ":".toList ∈ exactly name.text * exactly ":" :=
      append_mem_mul rfl rfl
    have hdeclaration : printDeclaration gap name value ∈ declarationLayouts name value :=
      append_mem_mul (append_mem_mul (append_mem_mul (append_mem_mul hname hgap) hvalue) rfl) hgap
    exact append_mem_mul hdeclaration ih
  | rule selector inner rest ihinner ihrest =>
    exact append_mem_mul (printRule_mem_layouts hgap ihinner selector) ihrest

theorem Tree.print_mem_layouts (t : Tree) : t.print gap ∈ t.layouts :=
  printRule_mem_layouts hgap (t.body.print_mem_layouts hgap) t.selector

end Print

/-! ### Parts of a layout -/

theorem length_ne_zero_of_mem_blank {gap : List Char} (h : gap ∈ blank) : gap.length ≠ 0 :=
  fun hlength => h.1 (List.eq_nil_of_length_eq_zero hlength)

/-- The first item of those after the first one of a row, with what stands before it. -/
theorem exists_of_mem_prod_cons {α : Type} {between : Language Char} {layouts : α → Language Char}
    {a : α} {more : List α} {tail : List Char}
    (h : tail ∈ ((a :: more).map fun a => between * layouts a).prod) :
    ∃ lead ∈ between, ∃ text ∈ layouts a, ∃ rest ∈ (more.map fun a => between * layouts a).prod,
      tail = lead ++ (text ++ rest) := by
  rw [List.map_cons, List.prod_cons] at h
  obtain ⟨_, hitem, rest, hrest, rfl⟩ := Language.mem_mul.1 h
  obtain ⟨lead, hlead, text, htext, rfl⟩ := Language.mem_mul.1 hitem
  exact ⟨lead, hlead, text, htext, rest, hrest, List.append_assoc lead text rest⟩

theorem exists_of_mem_comma {lead : List Char} (h : lead ∈ exactly "," * blank) :
    ∃ gap ∈ blank, lead = ',' :: gap := by
  obtain ⟨_, rfl, gap, hgap, rfl⟩ := Language.mem_mul.1 h
  exact ⟨gap, hgap, rfl⟩

/-- What is laid out with blanks ahead of each item starts with a blank, unless it is empty. -/
theorem head?_of_mem_prod {α : Type} {layouts : α → Language Char} {items : List α}
    {tail : List Char} (h : tail ∈ (items.map fun a => blank * layouts a).prod) (rest : List Char) :
    ∀ c ∈ (tail ++ rest).head?, c = ' ' ∨ c = '\n' ∨ (items = [] ∧ c ∈ rest.head?) := by
  cases items with
  | nil =>
    rw [List.map_nil, List.prod_nil, Language.mem_one] at h
    subst h
    intro c hc
    exact .inr (.inr ⟨rfl, hc⟩)
  | cons a items =>
    obtain ⟨gap, ⟨hne, hgap⟩, text, -, more, -, rfl⟩ := exists_of_mem_prod_cons h
    obtain ⟨d, gap, rfl⟩ := List.exists_cons_of_ne_nil hne
    intro c hc
    cases hc
    exact (hgap d List.mem_cons_self).imp_right .inl

theorem endsWord_of_mem_prod {α : Type} {layouts : α → Language Char} {items : List α}
    {tail rest : List Char} (h : tail ∈ (items.map fun a => blank * layouts a).prod)
    (hrest : EndsWord rest) : EndsWord (tail ++ rest) := by
  intro c hc
  rcases head?_of_mem_prod h rest c hc with h | h | ⟨-, h⟩
  · exact .inl h
  · exact .inr (.inl h)
  · exact hrest c h

theorem endsWord_of_mem_blank {gap : List Char} (hgap : gap ∈ blank) (rest : List Char) :
    EndsWord (gap ++ rest) := by
  obtain ⟨c, gap, rfl⟩ := List.exists_cons_of_ne_nil hgap.1
  intro d hd
  cases hd
  exact (hgap.2 c List.mem_cons_self).imp_right .inl

theorem exists_of_mem_ruleLayouts {selector : Row (Row Word)} {inner : Language Char}
    {text : List Char} (h : text ∈ ruleLayouts selector inner) :
    ∃ head ∈ rowsLayouts Word.text selector, ∃ last ∈ blank, ∃ gap ∈ blank, ∃ items ∈ inner,
      text = head ++ (last ++ '\x7b' :: (gap ++ (items ++ ['\x7d']))) := by
  obtain ⟨_, h₁, _, rfl, rfl⟩ := Language.mem_mul.1 h
  obtain ⟨_, h₂, items, hitems, rfl⟩ := Language.mem_mul.1 h₁
  obtain ⟨_, h₃, gap, hgap, rfl⟩ := Language.mem_mul.1 h₂
  obtain ⟨_, h₄, _, rfl, rfl⟩ := Language.mem_mul.1 h₃
  obtain ⟨head, hhead, last, hlast, rfl⟩ := Language.mem_mul.1 h₄
  exact ⟨head, hhead, last, hlast, gap, hgap, items, hitems, by simp⟩

theorem exists_of_mem_declarationLayouts {name : Ident} {value : Row (Row Ident)}
    {text : List Char} (h : text ∈ declarationLayouts name value) :
    ∃ gap ∈ blank, ∃ items ∈ rowsLayouts Ident.text value, ∃ last ∈ blank,
      text = name.text.toList ++ ':' :: (gap ++ (items ++ ';' :: last)) := by
  obtain ⟨_, h₁, last, hlast, rfl⟩ := Language.mem_mul.1 h
  obtain ⟨_, h₂, _, rfl, rfl⟩ := Language.mem_mul.1 h₁
  obtain ⟨_, h₃, items, hitems, rfl⟩ := Language.mem_mul.1 h₂
  obtain ⟨_, h₄, gap, hgap, rfl⟩ := Language.mem_mul.1 h₃
  obtain ⟨_, rfl, _, rfl, rfl⟩ := Language.mem_mul.1 h₄
  exact ⟨gap, hgap, items, hitems, last, hlast, by simp⟩

theorem length_of_mem_ruleLayouts {selector : Row (Row Word)} {inner : Language Char}
    {text : List Char} (h : text ∈ ruleLayouts selector inner) : 2 ≤ text.length := by
  obtain ⟨head, -, last, -, gap, -, items, -, rfl⟩ := exists_of_mem_ruleLayouts h
  simp only [List.length_append, List.length_cons]
  omega

theorem length_of_mem_declarationLayouts {name : Ident} {value : Row (Row Ident)}
    {text : List Char} (h : text ∈ declarationLayouts name value) : 2 ≤ text.length := by
  obtain ⟨gap, -, items, -, last, -, rfl⟩ := exists_of_mem_declarationLayouts h
  simp only [List.length_append, List.length_cons]
  omega

/-! ## Flat rules -/

/-- A rule without nesting. -/
structure FlatText where
  /-- The alternatives. -/
  selector : List String
  /-- Names and values. -/
  declarations : List (String × String)

/-- The texts of a row of rows, each with one space between its items. -/
def rowTexts {α : Type} (text : α → String) (rows : Row (Row α)) : List String :=
  rows.toList.map fun row => " ".intercalate (row.toList.map text)

/-- The alternatives of a selector below those of the rules around it. -/
def below (around : List String) (selector : Row (Row Word)) : List String :=
  around.flatMap fun parent => (rowTexts Word.text selector).map fun alt => parent ++ " " ++ alt

/-- The declarations that stand directly in a rule. -/
def Body.declarations : Body → List (String × String)
  | .nil => []
  | .declaration name value rest =>
    (name.text, ", ".intercalate (rowTexts Ident.text value)) :: rest.declarations
  | .rule _ _ rest => rest.declarations

/-- The flat rules of the nested rules, each after those nested in it. -/
def Body.rules (around : List String) : Body → List FlatText
  | .nil => []
  | .declaration _ _ rest => rest.rules around
  | .rule selector inner rest =>
    inner.rules (below around selector) ++ [⟨below around selector, inner.declarations⟩] ++
      rest.rules around

/-- The flat rules of a tree, its own first. -/
def Tree.rules (t : Tree) : List FlatText :=
  ⟨rowTexts Word.text t.selector, t.body.declarations⟩ ::
    t.body.rules (rowTexts Word.text t.selector)

/-- The text of a flat rule. A single declaration stands on the line of the selector. -/
def FlatText.text (rule : FlatText) : String :=
  ",\n".intercalate rule.selector ++
    match rule.declarations with
    | [(name, value)] => " \x7b " ++ name ++ ": " ++ value ++ "; \x7d"
    | declarations =>
      " \x7b\n" ++ String.join (declarations.map fun (name, value) =>
        "  " ++ name ++ ": " ++ value ++ ";\n") ++ "\x7d"

/-- The flat rules of some trees that hold declarations, one newline between them. -/
def sheetText (trees : List Tree) : String :=
  "\n".intercalate (((trees.flatMap Tree.rules).filter
    fun rule => !rule.declarations.isEmpty).map FlatText.text)

end Stylesheet.Nesting
