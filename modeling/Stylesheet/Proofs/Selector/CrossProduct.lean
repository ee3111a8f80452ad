import Stylesheet.Proofs.Selector.Spread

/-!
# Expansion as a cross product

Written out level by level, every alternative of a rule stands under every alternative of the rules
around it. Expansion takes three ways to get there: it puts spans around `&`, appends to them, and
once it meets a list without `&` it multiplies and folds in whatever is left of the chain.

* `Selector.crossProduct`: the alternatives of a chain, level by level.
* `spread_eq_crossFrom`: from a normal span on, the three ways agree with it on every chain in which
  nothing that follows a list without `&` is a list again.
* `expand_eq_crossProduct`: the same for whole chains.
-/

namespace Stylesheet

/-- `alt` under the parent `p`: each `&` stands for `p`; an alternative without `&` is a descendant. -/
def Alternative.under (p alt : Alternative) : Alternative :=
  if alt.hasParent then alt.flatMap (fillPiece p)
  else if p.isEmpty then alt
  else p ++ .space :: alt

namespace Selector

/-- The alternatives of `s` under each of the given parents. -/
def crossStep (parents : List Alternative) (s : Selector) : List Alternative :=
  parents.flatMap fun p => s.alternatives.map p.under

/-- The alternatives of a chain under the given parents. -/
def crossFrom (parents : List Alternative) (chain : List Selector) : List Alternative :=
  chain.foldl crossStep parents

/-- The alternatives of a chain. -/
def crossProduct (chain : List Selector) : List Alternative := crossFrom [[]] chain

/-! ## Level by level -/

theorem crossFrom_cons (parents : List Alternative) (s : Selector) (rest : List Selector) :
    crossFrom parents (s :: rest) = crossFrom (crossStep parents s) rest := rfl

theorem crossStep_singleton (p : Alternative) (s : Selector) :
    crossStep [p] s = s.alternatives.map p.under := by
  simp [crossStep]

theorem crossFrom_eq_flatMap (parents : List Alternative) (chain : List Selector) :
    crossFrom parents chain = parents.flatMap fun p => crossFrom [p] chain := by
  induction chain generalizing parents with
  | nil => simp [crossFrom]
  | cons s rest ih =>
    have hone : ∀ p, crossFrom [p] (s :: rest) =
        (s.alternatives.map p.under).flatMap fun q => crossFrom [q] rest := by
      intro p
      rw [crossFrom_cons, crossStep_singleton, ih]
    rw [crossFrom_cons, ih, crossStep, List.flatMap_assoc]
    exact List.flatMap_congr fun p _ => (hone p).symm

theorem crossFrom_singleton_cons (p : Alternative) (s : Selector) (rest : List Selector) :
    crossFrom [p] (s :: rest) = s.alternatives.flatMap fun alt => crossFrom [p.under alt] rest := by
  rw [crossFrom_cons, crossStep_singleton, crossFrom_eq_flatMap, List.flatMap_map]

/-- The last selector of a chain goes under all that the chain before it stands for. -/
theorem crossProduct_concat (chain : List Selector) (s : Selector) :
    crossProduct (chain ++ [s]) =
      (crossProduct chain).flatMap fun p => s.alternatives.map p.under := by
  unfold crossProduct crossFrom
  rw [List.foldl_append]
  rfl

/-! ## The three ways of expansion -/

theorem under_eq_fill {p alt : Alternative} (hp : p.IsNormal) (halt : alt.hasParent = true) :
    p.under alt = alt.fill p := by
  rw [hp.fill_eq]
  simp [Alternative.under, halt]

theorem under_eq_append {p alt : Alternative} (hp : p.IsNormal) (halt : alt.hasParent = false) :
    p.under alt = p.append alt := by
  rw [hp.append_eq]
  have hempty : p.isEmpty = false := by simpa using hp.ne_nil
  simp [Alternative.under, halt, hempty]

theorem under_nil {alt : Alternative} (halt : alt.hasParent = false) :
    Alternative.under [] alt = alt := by
  simp [Alternative.under, halt]

/-- `&` stands in every alternative or in none. -/
def IsUniform (s : Selector) : Prop :=
  (∀ alt ∈ s.alternatives, alt.hasParent = true) ∨ ∀ alt ∈ s.alternatives, alt.hasParent = false

theorem IsUniform.all_hasParent {s : Selector} (hs : s.IsUniform) (h : s.hasParent = true) :
    ∀ alt ∈ s.alternatives, alt.hasParent = true := by
  refine hs.resolve_right fun hnone => ?_
  obtain ⟨alt, hmem, halt⟩ := List.any_eq_true.1 h
  rw [hnone alt hmem] at halt
  cases halt

theorem fold_of_single {span : Alternative} (hspan : span.IsNormal) {later : Selector}
    {alt : Alternative} (hlater : later.alternatives = [alt]) :
    span.fold later = span.under alt := by
  have hparent : later.hasParent = alt.hasParent := by simp [Selector.hasParent, hlater]
  unfold Alternative.fold
  simp only [hlater, hparent, List.map_cons, List.map_nil, List.intercalate_singleton]
  cases h : alt.hasParent with
  | true => simp [under_eq_fill hspan h]
  | false => simp [under_eq_append hspan h]

/-- Folding in selectors of one alternative each is going down them level by level. -/
theorem crossFrom_of_single {span : Alternative} (hspan : span.IsNormal) {rest : List Selector}
    (hrest : ∀ t ∈ rest, t.IsNormal) (hsingle : ∀ t ∈ rest, t.size = 1) :
    crossFrom [span] rest = [rest.foldl Alternative.fold span] := by
  induction rest generalizing span with
  | nil => rfl
  | cons t rest ih =>
    obtain ⟨alt, halt⟩ := List.length_eq_one_iff.1 (hsingle t (by simp))
    have hnext := ih (hspan.fold (hrest t (by simp)))
      (fun u hu => hrest u (List.mem_cons_of_mem t hu))
      (fun u hu => hsingle u (List.mem_cons_of_mem t hu))
    rw [crossFrom_singleton_cons, halt, List.flatMap_singleton, ← fold_of_single hspan halt, hnext]
    rfl

/-- Where a list without `&` is multiplied out, the rest of the chain has nothing left to multiply. -/
theorem crossFrom_list {span : Alternative} {s : Selector} {rest : List Selector}
    (hunder : ∀ alt ∈ s.alternatives, span.under alt = span.append alt)
    (hnormal : ∀ alt ∈ s.alternatives, Alternative.IsNormal (span.append alt))
    (hrest : ∀ t ∈ rest, t.IsNormal) (hsingle : ∀ t ∈ rest, t.size = 1) :
    crossFrom [span] (s :: rest) =
      s.alternatives.map fun alt => rest.foldl Alternative.fold (span.append alt) := by
  rw [crossFrom_singleton_cons, List.map_eq_flatMap]
  refine List.flatMap_congr fun alt hmem => ?_
  rw [hunder alt hmem, crossFrom_of_single (hnormal alt hmem) hrest hsingle]

/-- From a normal span on, expansion is the cross product. -/
theorem spread_eq_crossFrom {span : Alternative} (hspan : span.IsNormal)
    {chain : List Selector} (hchain : ∀ s ∈ chain, s.IsNormal) (huniform : ∀ s ∈ chain, s.IsUniform)
    (hlists : chain.Pairwise fun s t => s.IsPlainList → t.size = 1) :
    spread span chain = crossFrom [span] chain := by
  induction chain generalizing span with
  | nil => rfl
  | cons s rest ih =>
    obtain ⟨hafter, hlists'⟩ := List.pairwise_cons.1 hlists
    have hs : s.IsNormal := hchain s (by simp)
    have hrest : ∀ t ∈ rest, t.IsNormal := fun t ht => hchain t (List.mem_cons_of_mem s ht)
    have hnext : ∀ {out : Alternative}, out.IsNormal → spread out rest = crossFrom [out] rest :=
      fun hout => ih hout hrest (fun t ht => huniform t (List.mem_cons_of_mem s ht)) hlists'
    rcases hs.kinds with hparent | ⟨hparent, alt, halt⟩ | hlist
    · have hall := (huniform s (by simp)).all_hasParent hparent
      rw [spread_parent span hparent, crossFrom_singleton_cons]
      refine List.flatMap_congr fun alt hmem => ?_
      rw [under_eq_fill hspan (hall alt hmem), hnext (hspan.fill (hs.alternatives alt hmem))]
    · have hmem : alt ∈ s.alternatives := by simp [halt]
      rw [spread_single span hparent halt, crossFrom_singleton_cons, halt, List.flatMap_singleton,
        under_eq_append hspan (hasParent_eq_false hparent hmem),
        hnext (hspan.append (hs.alternatives alt hmem))]
    · rw [spread_list span hlist]
      refine (crossFrom_list ?_ ?_ hrest fun t ht => hafter t ht hlist).symm
      · exact fun alt hmem => under_eq_append hspan (hasParent_eq_false hlist.1 hmem)
      · exact fun alt hmem => hspan.append (hs.alternatives alt hmem)

/-! ## Whole chains -/

/-- The same from the root on, where only a selector without `&` can stand. -/
theorem spread_root_eq_crossProduct {s : Selector} {rest : List Selector}
    (hchain : ∀ t ∈ s :: rest, t.IsNormal) (hfirst : s.hasParent = false)
    (huniform : ∀ t ∈ rest, t.IsUniform)
    (hlists : (s :: rest).Pairwise fun t u => t.IsPlainList → u.size = 1) :
    spread [] (s :: rest) = crossProduct (s :: rest) := by
  have hs : s.IsNormal := hchain s (by simp)
  have hrest : ∀ t ∈ rest, t.IsNormal := fun t ht => hchain t (List.mem_cons_of_mem s ht)
  have hunder : ∀ alt ∈ s.alternatives, Alternative.under [] alt = Alternative.append [] alt := by
    intro alt hmem
    rw [under_nil (hasParent_eq_false hfirst hmem), Alternative.append_nil_left]
  obtain ⟨hafter, hlists'⟩ := List.pairwise_cons.1 hlists
  unfold crossProduct
  rcases hs.kinds with hparent | ⟨_, alt, halt⟩ | hlist
  · exact absurd hparent (by simp [hfirst])
  · have hmem : alt ∈ s.alternatives := by simp [halt]
    rw [spread_single [] hfirst halt, crossFrom_singleton_cons, halt, List.flatMap_singleton,
      hunder alt hmem, Alternative.append_nil_left]
    exact spread_eq_crossFrom (hs.alternatives alt hmem) hrest huniform hlists'
  · rw [spread_list [] hlist]
    refine (crossFrom_list hunder ?_ hrest fun t ht => hafter t ht hlist).symm
    intro alt hmem
    rw [Alternative.append_nil_left]
    exact hs.alternatives alt hmem

theorem expand_eq_of_isNormal {s : Selector} {rest : List Selector} (hlen : (s :: rest).length ≤ 6)
    (hchain : ∀ t ∈ s :: rest, t.IsNormal) (hfirst : s.hasParent = false)
    (huniform : ∀ t ∈ rest, t.IsUniform)
    (hlists : (s :: rest).Pairwise fun t u => t.IsPlainList → u.size = 1) :
    expand (s :: rest) = .ok ⟨crossProduct (s :: rest)⟩ := by
  rw [expand_eq_spread hchain hfirst hlen, spread_root_eq_crossProduct hchain hfirst huniform hlists]

/-- Expansion is the cross product for every chain of one to six non-empty selectors that starts
without `&`, mixes no alternatives with and without `&` in one selector, and has only selectors of
one alternative after the first list without `&`. -/
theorem expand_eq_crossProduct (chain : List Selector) (hne : chain ≠ []) (hlen : chain.length ≤ 6)
    (hbuilt : ∀ s ∈ chain, s.isEmpty = false ∧ ∃ alts, s = ofAlternatives alts)
    (hfirst : ∀ s ∈ chain.head?, s.hasParent = false) (huniform : ∀ s ∈ chain, s.IsUniform)
    (hlists : chain.Pairwise fun s t => s.IsPlainList → t.size = 1) :
    expand chain = .ok ⟨crossProduct chain⟩ := by
  obtain ⟨s, rest, rfl⟩ := List.exists_cons_of_ne_nil hne
  exact expand_eq_of_isNormal hlen (fun t ht => (isNormal_iff t).2 (hbuilt t ht))
    (hfirst s (by simp)) (fun t ht => huniform t (List.mem_cons_of_mem s ht)) hlists

/-- A list with `&` multiplies, then a plain list does, and one more `&` is folded in. -/
theorem expand_lists_around_parents :
    expand [⟨[[.word "nav", .space, .word "a"]]⟩, ⟨[[.parent, .word ".x"], [.word "b", .space, .parent]]⟩,
        ⟨[[.word "p"], [.word "q"]]⟩, ⟨[[.parent, .word ":first", .parent]]⟩] =
      .ok ⟨[
        [.word "nav", .space, .word "a", .word ".x", .space, .word "p", .word ":first",
          .word "nav", .space, .word "a", .word ".x", .space, .word "p"],
        [.word "nav", .space, .word "a", .word ".x", .space, .word "q", .word ":first",
          .word "nav", .space, .word "a", .word ".x", .space, .word "q"],
        [.word "b", .space, .word "nav", .space, .word "a", .space, .word "p", .word ":first",
          .word "b", .space, .word "nav", .space, .word "a", .space, .word "p"],
        [.word "b", .space, .word "nav", .space, .word "a", .space, .word "q", .word ":first",
          .word "b", .space, .word "nav", .space, .word "a", .space, .word "q"]]⟩ := by
  refine (expand_eq_crossProduct _ (by simp) (by simp) ?_ ?_ ?_ ?_).trans rfl
  · intro s hs
    refine ⟨?_, s.alternatives, ?_⟩ <;>
    · simp only [List.mem_cons, List.not_mem_nil, or_false] at hs
      rcases hs with rfl | rfl | rfl | rfl <;> rfl
  · intro s hs
    obtain rfl : _ = s := by simpa using hs
    rfl
  · intro s hs
    simp only [List.mem_cons, List.not_mem_nil, or_false] at hs
    rcases hs with rfl | rfl | rfl | rfl
    · exact .inr (by simp [Alternative.hasParent, Piece.isParent])
    · exact .inl (by simp [Alternative.hasParent, Piece.isParent])
    · exact .inr (by simp [Alternative.hasParent, Piece.isParent])
    · exact .inl (by simp [Alternative.hasParent, Piece.isParent])
  · simp [IsPlainList, size, hasParent, Alternative.hasParent, Piece.isParent]

end Selector

end Stylesheet
