import Stylesheet.Proofs.Selector.Spread

/-!
# Expansion level by level

A chain can be expanded one level at a time: the flat selector of the rules outside stands in for
them. The two ways take different paths through the expansion. A flat selector with several
alternatives is a list at the head of a chain, so what follows it is folded in, while the whole
chain may have kept its spans apart up to its end.

* `hasParent_spread`: no `&` is left in what a chain becomes.
* `expand_concat`: one more level of a single alternative is folded into each flat alternative,
  whichever path the chain took.
* `expand_by_levels`: so the flat selector stands in for the chain.
-/

namespace Stylesheet

/-! ## No parent reference is left -/

namespace Alternative

theorem hasParent_append_list (a b : Alternative) :
    hasParent (a ++ b) = (a.hasParent || b.hasParent) := by
  simp [hasParent]

theorem hasParent_trimEnd {alt : Alternative} (h : alt.hasParent = false) :
    (trimEnd alt).hasParent = false := by
  obtain ⟨t, ht⟩ : trimEnd alt <+: alt := List.rdropWhile_prefix _ _
  rw [← ht, hasParent_append_list, Bool.or_eq_false_iff] at h
  exact h.1

theorem hasParent_fill {span : Alternative} (h : span.hasParent = false) (alt : Alternative) :
    (alt.fill span).hasParent = false := by
  unfold fill
  induction alt with
  | nil => rfl
  | cons p alt ih =>
    rw [List.flatMap_cons, hasParent_append_list, ih, Bool.or_false]
    cases p with
    | parent => exact hasParent_trimEnd h
    | word _ => rfl
    | space => rfl
    | value _ => rfl

theorem hasParent_append {span alt : Alternative} (hspan : span.hasParent = false)
    (halt : alt.hasParent = false) : (Alternative.append span alt).hasParent = false := by
  have hspace : hasParent (.space :: alt) = false := by simpa [hasParent, Piece.isParent] using halt
  unfold Alternative.append
  split
  · rw [hasParent_append_list, hspan, halt, Bool.or_self]
  · rw [hasParent_append_list, hspan, hspace, Bool.or_self]

theorem hasParent_intercalate_space {alts : List Alternative}
    (h : ∀ alt ∈ alts, alt.hasParent = false) :
    hasParent ([Piece.space].intercalate alts) = false := by
  induction alts with
  | nil => rfl
  | cons a rest ih =>
    have ha := h a List.mem_cons_self
    have hrest := ih fun alt hmem => h alt (List.mem_cons_of_mem a hmem)
    cases rest with
    | nil => simpa using ha
    | cons b rest =>
      have hspace : hasParent [.space] = false := rfl
      rw [List.intercalate_cons_cons, hasParent_append_list, hasParent_append_list, ha, hrest,
        hspace, Bool.or_self, Bool.or_self]

theorem hasParent_fold {span : Alternative} (hspan : span.hasParent = false) (later : Selector) :
    (span.fold later).hasParent = false := by
  have hfolded : hasParent ([Piece.space].intercalate (later.alternatives.map fun alt =>
      if alt.hasParent then alt.fill span else alt)) = false := by
    apply hasParent_intercalate_space
    intro out hout
    obtain ⟨alt, -, rfl⟩ := List.mem_map.1 hout
    cases halt : alt.hasParent with
    | true => simpa using hasParent_fill hspan alt
    | false => simpa using halt
  unfold Alternative.fold
  simp only
  split
  · exact hfolded
  · exact hasParent_append hspan hfolded

/-- A later selector of one alternative is put around the span or appended to it. -/
theorem fold_single (span : Alternative) {later : Selector} {alt : Alternative}
    (h : later.alternatives = [alt]) :
    span.fold later = if later.hasParent then alt.fill span else span.append alt := by
  have hparent : later.hasParent = alt.hasParent := by simp [Selector.hasParent, h]
  unfold Alternative.fold
  rw [hparent, h]
  cases halt : alt.hasParent <;> simp [halt]

end Alternative

namespace Selector

theorem hasParent_foldl_fold {span : Alternative} (hspan : span.hasParent = false)
    (rest : List Selector) : Alternative.hasParent (rest.foldl Alternative.fold span) = false := by
  induction rest generalizing span with
  | nil => exact hspan
  | cons t rest ih => exact ih (Alternative.hasParent_fold hspan t)

theorem hasParent_spread {span : Alternative} (hspan : span.hasParent = false)
    {chain : List Selector} (hchain : ∀ s ∈ chain, s.IsNormal) :
    ∀ out ∈ spread span chain, out.hasParent = false := by
  induction chain generalizing span with
  | nil => simpa [spread] using hspan
  | cons s rest ih =>
    have hrest : ∀ t ∈ rest, t.IsNormal := fun t ht => hchain t (List.mem_cons_of_mem s ht)
    intro out hout
    rcases (hchain s List.mem_cons_self).kinds with hparent | ⟨hparent, alt, halt⟩ | hlist
    · rw [spread_parent span hparent] at hout
      obtain ⟨alt, -, hout⟩ := List.mem_flatMap.1 hout
      exact ih (Alternative.hasParent_fill hspan alt) hrest out hout
    · rw [spread_single span hparent halt] at hout
      have hplain : alt.hasParent = false := hasParent_eq_false hparent (by simp [halt])
      exact ih (Alternative.hasParent_append hspan hplain) hrest out hout
    · rw [spread_list span hlist] at hout
      obtain ⟨alt, hmem, rfl⟩ := List.mem_map.1 hout
      have hplain : alt.hasParent = false := hasParent_eq_false hlist.1 hmem
      exact hasParent_foldl_fold (Alternative.hasParent_append hspan hplain) rest

/-! ## One more level -/

/-- One more selector of a single alternative is folded into each of the alternatives that a chain
becomes. The selector need not be in normal form. -/
theorem expandFrom_concat {spans : List Alternative} (hspans : IsNormal ⟨spans⟩)
    {chain : List Selector} (hchain : ∀ t ∈ chain, t.IsNormal) {s : Selector} {alt : Alternative}
    (hs : s.alternatives = [alt]) :
    expandFrom spans (chain ++ [s]) =
      .ok ((spans.flatMap fun span => spread span chain).map fun out => out.fold s) := by
  induction chain generalizing spans with
  | nil =>
    have hempty := hspans.all_isEmpty
    cases hparent : s.hasParent with
    | true =>
      simp [expandFrom, spread, hs, hparent, hempty, Alternative.fold_single _ hs,
        List.map_eq_flatMap]
    | false => simp [expandFrom, spread, hs, hparent, Alternative.fold_single _ hs]
  | cons t rest ih =>
    have ht : t.IsNormal := hchain t List.mem_cons_self
    have hrest : ∀ u ∈ rest, u.IsNormal := fun u hu => hchain u (List.mem_cons_of_mem t hu)
    rw [List.cons_append]
    rcases ht.kinds with hparent | ⟨hparent, a, ha⟩ | hlist
    · have hstep := isNormal_flatMap hspans ht fun span hspan alt halt =>
        (hspans.alternatives span hspan).fill (ht.alternatives alt halt)
      have hnext := ih hstep hrest
      rw [List.flatMap_assoc] at hnext
      simpa [expandFrom, hparent, hspans.all_isEmpty, spread_parent _ hparent, List.flatMap_map]
        using hnext
    · have hstep : IsNormal ⟨spans.map fun span => span.append a⟩ := by
        refine ⟨by simpa using hspans.ne_nil, ?_⟩
        intro out hmem
        obtain ⟨span, hspan, rfl⟩ := List.mem_map.1 hmem
        exact (hspans.alternatives span hspan).append (ht.alternatives a (by simp [ha]))
      have hnext := ih hstep hrest
      rw [List.flatMap_map] at hnext
      simpa [expandFrom, hparent, ha, spread_single _ hparent ha] using hnext
    · obtain ⟨a, b, more, halts⟩ := hlist.exists_alternatives
      simp [expandFrom, hlist.1, halts, spread_list _ hlist, List.map_flatMap, Function.comp_def]

theorem expandFrom_root_concat {t : Selector} {rest : List Selector}
    (hchain : ∀ u ∈ t :: rest, u.IsNormal) (hfirst : t.hasParent = false) {s : Selector}
    {alt : Alternative} (hs : s.alternatives = [alt]) :
    expandFrom [[]] (t :: rest ++ [s]) =
      .ok ((spread [] (t :: rest)).map fun out => out.fold s) := by
  have ht : t.IsNormal := hchain t List.mem_cons_self
  have hrest : ∀ u ∈ rest, u.IsNormal := fun u hu => hchain u (List.mem_cons_of_mem t hu)
  rcases ht.kinds with hparent | ⟨_, a, ha⟩ | hlist
  · simp [hfirst] at hparent
  · have hspans : IsNormal ⟨[a]⟩ := ha ▸ ⟨ht.ne_nil, ht.alternatives⟩
    have hnext := expandFrom_concat hspans hrest hs
    simpa [expandFrom, hfirst, ha, spread_single _ hfirst ha] using hnext
  · obtain ⟨a, b, more, halts⟩ := hlist.exists_alternatives
    simp [expandFrom, hfirst, halts, spread_list _ hlist]

/-- What a chain that could be expanded is expanded to. -/
theorem expand_eq_ok {t : Selector} {rest : List Selector} (hchain : ∀ u ∈ t :: rest, u.IsNormal)
    {flat : Selector} (h : expand (t :: rest) = .ok flat) :
    t.hasParent = false ∧ flat = ⟨spread [] (t :: rest)⟩ := by
  have hno : ¬ (t.hasParent = true ∨ 6 < (t :: rest).length) := by
    rw [← expand_error_iff hchain]
    rintro ⟨e, he⟩
    rw [h] at he
    cases he
  have hfirst : t.hasParent = false := by
    by_contra hparent
    exact hno (.inl (by simpa using hparent))
  have hlen : (t :: rest).length ≤ 6 := by
    by_contra hlong
    exact hno (.inr (by omega))
  rw [expand_eq_spread hchain hfirst hlen] at h
  exact ⟨hfirst, (Except.ok.inj h).symm⟩

/-- A flat selector under one more level of a single alternative. -/
theorem expand_concat {chain : List Selector} (hne : chain ≠ []) (hchain : ∀ t ∈ chain, t.IsNormal)
    {flat : Selector} (h : expand chain = .ok flat) {s : Selector} {alt : Alternative}
    (hs : s.alternatives = [alt]) (hlen : (chain ++ [s]).length ≤ 6) :
    expand (chain ++ [s]) = .ok (ofAlternatives (flat.alternatives.map fun out => out.fold s)) := by
  obtain ⟨t, rest, rfl⟩ := List.exists_cons_of_ne_nil hne
  obtain ⟨hfirst, rfl⟩ := expand_eq_ok hchain h
  rw [expand_of_length_le hlen, expandFrom_root_concat hchain hfirst hs]
  rfl

theorem isNormal_of_expand {chain : List Selector} (hne : chain ≠ [])
    (hchain : ∀ t ∈ chain, t.IsNormal) {flat : Selector} (h : expand chain = .ok flat) :
    flat.IsNormal ∧ flat.hasParent = false := by
  obtain ⟨t, rest, rfl⟩ := List.exists_cons_of_ne_nil hne
  obtain ⟨hfirst, rfl⟩ := expand_eq_ok hchain h
  refine ⟨isNormal_spread_root hchain hfirst, ?_⟩
  unfold hasParent
  rw [List.any_eq_false]
  intro out hout
  have hroot : Alternative.hasParent [] = false := rfl
  simp [hasParent_spread hroot hchain out hout]

/-- The flat selector of a chain stands in for it: with one more level of a single alternative, the
chain and its flat selector are expanded to the same. -/
theorem expand_by_levels (chain : List Selector) (hne : chain ≠ [])
    (hbuilt : ∀ t ∈ chain, t.isEmpty = false ∧ ∃ alts, t = ofAlternatives alts) (flat : Selector)
    (hflat : expand chain = .ok flat) (s : Selector) (hs : s.size = 1)
    (hlen : (chain ++ [s]).length ≤ 6) :
    ∃ out, expand (chain ++ [s]) = .ok out ∧ expand [flat, s] = .ok out := by
  obtain ⟨alt, halt⟩ : ∃ alt, s.alternatives = [alt] := List.length_eq_one_iff.1 hs
  have hchain : ∀ t ∈ chain, t.IsNormal := fun t ht => (isNormal_iff t).2 (hbuilt t ht)
  obtain ⟨hnormal, hparent⟩ := isNormal_of_expand hne hchain hflat
  have hwhole := expand_concat hne hchain hflat halt hlen
  have hpair : expand ([flat] ++ [s]) = _ := expand_concat (by simp) (by simpa using hnormal)
    (expand_singleton hnormal hparent) halt (by simp)
  exact ⟨_, hwhole, hpair⟩

/-- The outer two levels are kept apart as spans, the list of the third multiplies them, that of the
fourth is folded in; the flat selector of the four is a list itself. -/
theorem expand_by_levels_after_two_lists :
    expand [⟨[[.word "nav"]]⟩, ⟨[[.parent, .word ".x"], [.word "b"]]⟩, ⟨[[.word "p"], [.word "q"]]⟩,
        ⟨[[.word "c"], [.parent, .word ":d"]]⟩] =
      .ok ⟨[
        [.word "c", .space, .word "nav", .word ".x", .space, .word "p", .word ":d"],
        [.word "c", .space, .word "nav", .word ".x", .space, .word "q", .word ":d"],
        [.word "c", .space, .word "b", .space, .word "p", .word ":d"],
        [.word "c", .space, .word "b", .space, .word "q", .word ":d"]]⟩ ∧
    ∃ out,
      expand [⟨[[.word "nav"]]⟩, ⟨[[.parent, .word ".x"], [.word "b"]]⟩,
        ⟨[[.word "p"], [.word "q"]]⟩, ⟨[[.word "c"], [.parent, .word ":d"]]⟩,
        ⟨[[.word "i", .space, .parent, .word ":e"]]⟩] = .ok out ∧
      expand [⟨[
        [.word "c", .space, .word "nav", .word ".x", .space, .word "p", .word ":d"],
        [.word "c", .space, .word "nav", .word ".x", .space, .word "q", .word ":d"],
        [.word "c", .space, .word "b", .space, .word "p", .word ":d"],
        [.word "c", .space, .word "b", .space, .word "q", .word ":d"]]⟩,
        ⟨[[.word "i", .space, .parent, .word ":e"]]⟩] = .ok out := by
  refine ⟨rfl, expand_by_levels
    [⟨[[.word "nav"]]⟩, ⟨[[.parent, .word ".x"], [.word "b"]]⟩, ⟨[[.word "p"], [.word "q"]]⟩,
      ⟨[[.word "c"], [.parent, .word ":d"]]⟩] (by simp) ?_ _ rfl _ rfl (by simp)⟩
  intro t ht
  refine ⟨?_, t.alternatives, ?_⟩ <;>
  · simp only [List.mem_cons, List.not_mem_nil, or_false] at ht
    rcases ht with rfl | rfl | rfl | rfl <;> rfl

end Selector

end Stylesheet
