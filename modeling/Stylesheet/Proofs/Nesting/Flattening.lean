import Mathlib
import Stylesheet.Css.Basic
import Stylesheet.Proofs.Css.Flattening
import Stylesheet.Proofs.Nesting.Reading
import Stylesheet.Proofs.Selector.CrossProduct

/-!
# Flattening plain rules

The nodes of a tree of plain rules are flattened to its flat rules. With at most one list on each way
down, expansion is the cross product, whose texts are the texts of the rules around with the texts of
the inner rule below them.

* `chainTexts`: the texts that a chain of plain selectors stands for.
* `IsText`: a flat rule and what is written for it.
* `exists_flattenNodes`, `exists_flattenRule`: the flat rules of plain items and of a tree.
-/

namespace Stylesheet.Nesting

open Selector

/-! ## Selectors -/

/-- The text of an alternative. -/
theorem join_css_pieces (row : Row Word) :
    String.join (row.pieces.map Piece.css) = " ".intercalate (row.toList.map Word.text) := by
  obtain ⟨first, more⟩ := row
  induction more generalizing first with
  | nil => simp [Row.pieces, Row.toList, Piece.css, Piece.text]
  | cons w more ih =>
    have hrest := ih w
    simp only [Row.pieces, Row.toList, List.map_cons, List.flatMap_cons, List.map_append,
      String.join_cons, String.join_append, String.intercalate_cons_cons] at hrest ⊢
    rw [← hrest]
    simp [Piece.css, Piece.text, String.append_assoc]

theorem css_selectorOf (rows : Row (Row Word)) :
    (selectorOf rows).css = rowTexts Word.text rows := by
  rw [Selector.css, selectorOf, rowTexts, List.map_map]
  exact List.map_congr_left fun row _ => join_css_pieces row

theorem hasParent_pieces (row : Row Word) : row.pieces.hasParent = false := by
  rw [Alternative.hasParent, List.any_eq_false]
  intro piece hpiece
  rcases Row.mem_pieces hpiece with rfl | ⟨text, rfl⟩ <;> simp [Piece.isParent]

theorem hasParent_of_mem_selectorOf {rows : Row (Row Word)} {alt : Alternative}
    (h : alt ∈ (selectorOf rows).alternatives) : alt.hasParent = false := by
  obtain ⟨row, -, rfl⟩ := List.mem_map.1 h
  exact hasParent_pieces row

theorem hasParent_selectorOf (rows : Row (Row Word)) : (selectorOf rows).hasParent = false := by
  rw [Selector.hasParent, List.any_eq_false]
  intro alt halt
  simp [hasParent_of_mem_selectorOf halt]

theorem size_selectorOf (rows : Row (Row Word)) :
    (selectorOf rows).size = rows.more.length + 1 := by
  simp [Selector.size, selectorOf, Row.toList]

theorem size_of_listCount {rows : Row (Row Word)} (h : listCount rows = 0) :
    (selectorOf rows).size = 1 := by
  rw [size_selectorOf]
  simpa [listCount] using h

theorem listCount_of_isPlainList {rows : Row (Row Word)} (h : (selectorOf rows).IsPlainList) :
    listCount rows = 1 := by
  have hsize := h.2
  rw [size_selectorOf] at hsize
  have hmore : rows.more ≠ [] := by
    rintro hnil
    simp [hnil] at hsize
  simp [listCount, hmore]

/-! ## Chains -/

/-- The most lists in a chain. -/
def chainLists (chain : List (Row (Row Word))) : Nat := (chain.map listCount).sum

/-- The texts that a chain of selectors stands for. -/
def chainTexts (chain : List (Row (Row Word))) : List String :=
  Selector.css ⟨crossProduct (chain.map selectorOf)⟩

theorem pairwise_of_chainLists {chain : List (Row (Row Word))} (h : chainLists chain ≤ 1) :
    (chain.map selectorOf).Pairwise fun s t => s.IsPlainList → t.size = 1 := by
  induction chain with
  | nil => exact .nil
  | cons rows chain ih =>
    have hsum : listCount rows + chainLists chain ≤ 1 := by simpa [chainLists] using h
    rw [List.map_cons, List.pairwise_cons]
    refine ⟨?_, ih (by omega)⟩
    intro t ht hlist
    obtain ⟨inner, hinner, rfl⟩ := List.mem_map.1 ht
    have hcount := listCount_of_isPlainList hlist
    have hle : listCount inner ≤ chainLists chain :=
      List.le_sum_of_mem (List.mem_map_of_mem hinner)
    exact size_of_listCount (by omega)

theorem expand_chain (chain : List (Row (Row Word))) (hne : chain ≠ []) (hlen : chain.length ≤ 6)
    (hlists : chainLists chain ≤ 1) :
    expand (chain.map selectorOf) = .ok ⟨crossProduct (chain.map selectorOf)⟩ := by
  obtain ⟨rows, chain, rfl⟩ := List.exists_cons_of_ne_nil hne
  rw [List.map_cons]
  refine expand_eq_of_isNormal (by simpa using hlen) ?_ (hasParent_selectorOf rows) ?_
    (pairwise_of_chainLists hlists)
  · intro t ht
    obtain ⟨inner, -, rfl⟩ := List.mem_map.1 (List.map_cons ▸ ht : t ∈ (rows :: chain).map selectorOf)
    exact isNormal_selectorOf inner
  · intro t ht
    obtain ⟨inner, -, rfl⟩ := List.mem_map.1 ht
    exact .inr fun alt halt => hasParent_of_mem_selectorOf halt

theorem under_pieces_ne_nil (p : Alternative) (row : Row Word) : p.under row.pieces ≠ [] := by
  have hrow := row.isNormal_pieces.ne_nil
  simp only [Alternative.under, hasParent_pieces]
  split_ifs <;> simp_all

theorem ne_nil_of_mem_crossProduct {chain : List (Row (Row Word))} (hne : chain ≠ [])
    {alt : Alternative} (h : alt ∈ crossProduct (chain.map selectorOf)) : alt ≠ [] := by
  rw [← List.dropLast_append_getLast hne, List.map_append, List.map_singleton,
    crossProduct_concat] at h
  obtain ⟨p, -, hp⟩ := List.mem_flatMap.1 h
  obtain ⟨_, hrow, rfl⟩ := List.mem_map.1 hp
  obtain ⟨row, -, rfl⟩ := List.mem_map.1 hrow
  exact under_pieces_ne_nil p row

theorem chainTexts_singleton (rows : Row (Row Word)) :
    chainTexts [rows] = rowTexts Word.text rows := by
  have hcross : crossProduct [selectorOf rows] = (selectorOf rows).alternatives := by
    show crossStep [[]] (selectorOf rows) = _
    rw [crossStep_singleton]
    have hunder : ∀ alt ∈ (selectorOf rows).alternatives, Alternative.under [] alt = id alt :=
      fun alt halt => under_nil (hasParent_of_mem_selectorOf halt)
    rw [List.map_congr_left hunder, List.map_id]
  rw [chainTexts, List.map_singleton, hcross]
  exact css_selectorOf rows

theorem chainTexts_concat {chain : List (Row (Row Word))} (hne : chain ≠ [])
    (rows : Row (Row Word)) : chainTexts (chain ++ [rows]) = below (chainTexts chain) rows := by
  have hunder : ∀ p ∈ crossProduct (chain.map selectorOf), ∀ row : Row Word,
      String.join ((p.under row.pieces).map Piece.css) =
        String.join (p.map Piece.css) ++ " " ++ " ".intercalate (row.toList.map Word.text) := by
    intro p hp row
    have hpne := ne_nil_of_mem_crossProduct hne hp
    have hempty : p.isEmpty = false := by simpa using hpne
    rw [Alternative.under, hasParent_pieces, hempty, ← join_css_pieces]
    simp [String.join_append, Piece.css, Piece.text, String.append_assoc]
  rw [chainTexts, List.map_append, List.map_singleton, crossProduct_concat, below, chainTexts]
  simp only [Selector.css, selectorOf, rowTexts, List.map_flatMap, List.map_map,
    List.flatMap_map]
  refine List.flatMap_congr fun p hp => List.map_congr_left fun row _ => ?_
  exact hunder p hp row

/-! ## Values -/

theorem css_ofIdent (text : String) : (Value.ofIdent text).css = text := by
  unfold Value.ofIdent
  split_ifs with htrue hfalse
  · rw [htrue]
    rfl
  · rw [hfalse]
    rfl
  · rfl

theorem cssTexts_eq_map (items : List Value) : Value.cssTexts items = items.map Value.css := by
  induction items with
  | nil => rfl
  | cons v items ih => rw [Value.cssTexts, ih, List.map_cons]

theorem css_listOf (separator : Separator) (items : List Value) :
    (listOf separator items).css = separator.text.intercalate (items.map Value.css) := by
  unfold listOf
  split
  next => simp
  next => rw [Value.css, cssTexts_eq_map]

theorem css_valueOf (rows : Row (Row Ident)) :
    (valueOf rows).css = ", ".intercalate (rowTexts Ident.text rows) := by
  have hrow : ∀ row : Row Ident, row.value.css = " ".intercalate (row.toList.map Ident.text) := by
    intro row
    rw [row.value_eq_listOf, css_listOf, List.map_map, Separator.text]
    congr 1
    exact List.map_congr_left fun i _ => css_ofIdent i.text
  rw [valueOf_eq_listOf, css_listOf, List.map_map, rowTexts, Separator.text]
  congr 1
  exact List.map_congr_left fun row _ => hrow row

/-! ## Flat rules -/

/-- A node that is a declaration, and the name and value that it writes. -/
def IsDeclaration (node : Node) (written : String × String) : Prop :=
  ∃ d, node = .declaration d ∧ d.name = written.1 ∧ d.value.css = written.2

/-- A flat rule, and what is written for it. -/
structure IsText (flat : FlatRule) (rule : FlatText) : Prop where
  selector : flat.selector.css = rule.selector
  items : List.Forall₂ IsDeclaration flat.items rule.declarations

theorem forall₂_ownItems {depth : Nat} {body : Body} {nodes : List Node}
    (h : body.Nodes depth nodes) :
    List.Forall₂ IsDeclaration (ownItems nodes) body.declarations := by
  induction h with
  | nil => exact .nil
  | @declaration _ name value position _ _ _ ih =>
    exact .cons ⟨⟨name.text, valueOf value, position⟩, rfl, rfl, css_valueOf value⟩ ih
  | rule _ _ _ ih => exact ih

/-- Plain items are flattened to their flat rules, in order. -/
theorem exists_flattenNodes {depth : Nat} {body : Body} {nodes : List Node}
    (h : body.Nodes depth nodes) (chain : List (Row (Row Word))) (hne : chain ≠ [])
    (hlen : chain.length + body.depth ≤ 6) (hlists : chainLists chain + body.lists ≤ 1) :
    ∃ flat, flattenNodes (chain.map selectorOf) nodes = .ok flat ∧
      List.Forall₂ IsText flat (body.rules (chainTexts chain)) := by
  -- The chain grows by each rule that is entered, and what is left below it shrinks by as much.
  induction h generalizing chain with
  | nil => exact ⟨[], rfl, .nil⟩
  | declaration _ ih =>
    obtain ⟨flat, hflat, htexts⟩ := ih chain hne hlen hlists
    exact ⟨flat, (flattenNodes_other _ rfl _).trans hflat, htexts⟩
  | @rule depth selector inner rest body nodes hinner hrest ihinner ihrest =>
    rw [Body.depth] at hlen
    rw [Body.lists] at hlists
    have hlength : (chain ++ [selector]).length = chain.length + 1 := by simp
    have hcount : chainLists (chain ++ [selector]) = chainLists chain + listCount selector := by
      simp [chainLists]
    have hexpand := expand_chain (chain ++ [selector]) (by simp) (by omega) (by omega)
    obtain ⟨nested, hnested, hnestedTexts⟩ :=
      ihinner (chain ++ [selector]) (by simp) (by omega) (by omega)
    obtain ⟨flat, hflat, htexts⟩ := ihrest chain hne (by omega) (by omega)
    have hcss : Selector.css ⟨crossProduct ((chain ++ [selector]).map selectorOf)⟩ =
        below (chainTexts chain) selector := chainTexts_concat hne selector
    have hown : IsText ⟨⟨crossProduct ((chain ++ [selector]).map selectorOf)⟩, depth + 1,
        ownItems body⟩ ⟨below (chainTexts chain) selector, inner.declarations⟩ :=
      ⟨hcss, forall₂_ownItems hinner⟩
    rw [chainTexts_concat hne] at hnestedTexts
    rw [List.map_append, List.map_singleton] at hnested hexpand hown
    refine ⟨_, ?_, List.rel_append (List.rel_append hnestedTexts (.cons hown .nil)) htexts⟩
    rw [flattenNodes, flattenNode, hexpand, hnested, hflat]
    rfl

/-- The flat rules of a tree that hold declarations. -/
def Tree.written (t : Tree) : List FlatText :=
  t.rules.filter fun rule => !rule.declarations.isEmpty

/-- The nodes of a tree are flattened to its flat rules that hold declarations. -/
theorem exists_flattenRule {t : Tree} {body : List Node} (h : t.body.Nodes 1 body)
    (hdepth : t.depth ≤ 6) (hlists : t.lists ≤ 1) :
    ∃ flat, flattenRule (selectorOf t.selector) 1 body = .ok flat ∧
      List.Forall₂ IsText flat t.written := by
  rw [Tree.depth] at hdepth
  rw [Tree.lists] at hlists
  have hcount : chainLists [t.selector] = listCount t.selector := by simp [chainLists]
  obtain ⟨nested, hnested, htexts⟩ := exists_flattenNodes h [t.selector] (by simp)
    (by rw [List.length_singleton]; omega) (by omega)
  have hown : IsText ⟨selectorOf t.selector, 1, ownItems body⟩
      ⟨rowTexts Word.text t.selector, t.body.declarations⟩ :=
    ⟨css_selectorOf t.selector, forall₂_ownItems h⟩
  rw [chainTexts_singleton] at htexts
  rw [List.map_singleton] at hnested
  have hrun : flattenRule (selectorOf t.selector) 1 body =
      .ok ((⟨selectorOf t.selector, 1, ownItems body⟩ :: nested).filter
        fun flat => !flat.items.isEmpty) := by
    rw [flattenRule, hasParent_selectorOf, hnested]
    rfl
  refine ⟨_, hrun, List.rel_filter ?_ (.cons hown htexts)⟩
  intro flat rule hrule
  have hlength := hrule.items.length_eq
  simp [← List.length_eq_zero_iff, hlength]

end Stylesheet.Nesting
