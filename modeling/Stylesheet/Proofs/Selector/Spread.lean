import Stylesheet.Proofs.Selector.Normal

/-!
# What becomes of one span

Expansion treats its spans independently of each other: what a chain makes of a list of spans is what
it makes of each of them, one after the other.

* `spread span chain`: the alternatives that one span becomes along a chain.
* `expandFrom_eq_spread`: expansion from normal spans succeeds and gives the alternatives of each.
* `expand_ok`: so a chain that starts without `&` and is not too long is expanded, and what it is
  expanded to is normal.
* `spread_append`, `spread_append_of_list`: chains in two parts. After a list without `&` the second
  part is folded in.
-/

namespace Stylesheet.Selector

/-- What one span becomes along a chain. -/
def spread (span : Alternative) : List Selector → List Alternative
  | [] => [span]
  | s :: rest =>
    if s.hasParent then s.alternatives.flatMap fun alt => spread (alt.fill span) rest
    else
      match s.alternatives with
      | [alt] => spread (span.append alt) rest
      | alts => alts.map fun alt => rest.foldl Alternative.fold (span.append alt)

/-! ## Three kinds of selectors -/

theorem spread_parent (span : Alternative) {s : Selector} (h : s.hasParent = true)
    (rest : List Selector) :
    spread span (s :: rest) = s.alternatives.flatMap fun alt => spread (alt.fill span) rest := by
  simp [spread, h]

theorem spread_single (span : Alternative) {s : Selector} (h : s.hasParent = false)
    {alt : Alternative} (hs : s.alternatives = [alt]) (rest : List Selector) :
    spread span (s :: rest) = spread (span.append alt) rest := by
  simp [spread, h, hs]

/-- Several alternatives, none of them with `&`. -/
def IsPlainList (s : Selector) : Prop := s.hasParent = false ∧ 1 < s.size

theorem IsPlainList.exists_alternatives {s : Selector} (h : s.IsPlainList) :
    ∃ a b more, s.alternatives = a :: b :: more := by
  match halts : s.alternatives with
  | [] => exact absurd h.2 (by simp [size, halts])
  | [a] => exact absurd h.2 (by simp [size, halts])
  | a :: b :: more => exact ⟨a, b, more, rfl⟩

theorem not_isPlainList_of_hasParent {s : Selector} (h : s.hasParent = true) : ¬ s.IsPlainList :=
  fun hlist => by simp [hlist.1] at h

theorem not_isPlainList_of_single {s : Selector} {alt : Alternative} (h : s.alternatives = [alt]) :
    ¬ s.IsPlainList :=
  fun hlist => by simp [IsPlainList, size, h] at hlist

theorem spread_list (span : Alternative) {s : Selector} (h : s.IsPlainList) (rest : List Selector) :
    spread span (s :: rest) =
      s.alternatives.map fun alt => rest.foldl Alternative.fold (span.append alt) := by
  obtain ⟨a, b, more, halts⟩ := h.exists_alternatives
  simp [spread, h.1, halts]

/-- A normal selector has `&`, or one alternative, or is a list. -/
theorem IsNormal.kinds {s : Selector} (hs : s.IsNormal) :
    s.hasParent = true ∨ (s.hasParent = false ∧ ∃ alt, s.alternatives = [alt]) ∨ s.IsPlainList := by
  cases hparent : s.hasParent with
  | true => exact .inl rfl
  | false =>
    right
    match halts : s.alternatives with
    | [] => exact absurd halts hs.ne_nil
    | [alt] => exact .inl ⟨rfl, alt, rfl⟩
    | a :: b :: more => exact .inr ⟨hparent, by simp [size, halts]⟩

theorem hasParent_eq_false {s : Selector} (h : s.hasParent = false) {alt : Alternative}
    (hmem : alt ∈ s.alternatives) : alt.hasParent = false := by
  unfold hasParent at h
  simpa using List.any_eq_false.1 h alt hmem

/-! ## Normal spans stay normal -/

theorem isNormal_foldl_fold {span : Alternative} (hspan : span.IsNormal) {rest : List Selector}
    (hrest : ∀ t ∈ rest, t.IsNormal) : Alternative.IsNormal (rest.foldl Alternative.fold span) := by
  induction rest generalizing span with
  | nil => exact hspan
  | cons t rest ih =>
    exact ih (hspan.fold (hrest t (by simp))) fun u hu => hrest u (List.mem_cons_of_mem t hu)

theorem isNormal_spread {span : Alternative} (hspan : span.IsNormal) {chain : List Selector}
    (hchain : ∀ s ∈ chain, s.IsNormal) : IsNormal ⟨spread span chain⟩ := by
  induction chain generalizing span with
  | nil => exact ⟨by simp [spread], by simpa [spread] using hspan⟩
  | cons s rest ih =>
    have hs : s.IsNormal := hchain s (by simp)
    have hrest : ∀ t ∈ rest, t.IsNormal := fun t ht => hchain t (List.mem_cons_of_mem s ht)
    rcases hs.kinds with hparent | ⟨hparent, alt, halt⟩ | hlist
    · rw [spread_parent span hparent]
      have hnext : ∀ alt ∈ s.alternatives, IsNormal ⟨spread (alt.fill span) rest⟩ :=
        fun alt hmem => ih (hspan.fill (hs.alternatives alt hmem)) hrest
      constructor
      · obtain ⟨alt, hmem⟩ := List.exists_mem_of_ne_nil _ hs.ne_nil
        intro hnil
        exact (hnext alt hmem).ne_nil (List.flatMap_eq_nil_iff.1 hnil alt hmem)
      · intro out hout
        obtain ⟨alt, hmem, hout⟩ := List.mem_flatMap.1 hout
        exact (hnext alt hmem).alternatives out hout
    · rw [spread_single span hparent halt]
      exact ih (hspan.append (hs.alternatives alt (by simp [halt]))) hrest
    · rw [spread_list span hlist]
      refine ⟨by simpa using hs.ne_nil, ?_⟩
      intro out hout
      obtain ⟨alt, hmem, rfl⟩ := List.mem_map.1 hout
      exact isNormal_foldl_fold (hspan.append (hs.alternatives alt hmem)) hrest

/-! ## Expansion -/

/-- Normal spans are never all empty. -/
theorem IsNormal.all_isEmpty {spans : List Alternative} (h : IsNormal ⟨spans⟩) :
    spans.all List.isEmpty = false := by
  obtain ⟨span, rest, rfl⟩ := List.exists_cons_of_ne_nil h.ne_nil
  simp [(h.alternatives span (by simp)).ne_nil]

theorem isNormal_flatMap {spans : List Alternative} {s : Selector} (hspans : IsNormal ⟨spans⟩)
    (hs : s.IsNormal) {f : Alternative → Alternative → Alternative}
    (hf : ∀ span ∈ spans, ∀ alt ∈ s.alternatives, Alternative.IsNormal (f span alt)) :
    IsNormal ⟨spans.flatMap fun span => s.alternatives.map (f span)⟩ := by
  constructor
  · obtain ⟨span, rest, rfl⟩ := List.exists_cons_of_ne_nil hspans.ne_nil
    simp [hs.ne_nil]
  · intro alt hmem
    obtain ⟨span, hspan, halt⟩ := List.mem_flatMap.1 hmem
    obtain ⟨raw, hraw, rfl⟩ := List.mem_map.1 halt
    exact hf span hspan raw hraw

theorem expandFrom_eq_spread {spans : List Alternative} (hspans : IsNormal ⟨spans⟩)
    {chain : List Selector} (hchain : ∀ s ∈ chain, s.IsNormal) :
    expandFrom spans chain = .ok (spans.flatMap fun span => spread span chain) := by
  induction chain generalizing spans with
  | nil => simp [expandFrom, spread]
  | cons s rest ih =>
    have hs : s.IsNormal := hchain s (by simp)
    have hrest : ∀ t ∈ rest, t.IsNormal := fun t ht => hchain t (List.mem_cons_of_mem s ht)
    rcases hs.kinds with hparent | ⟨hparent, alt, halt⟩ | hlist
    · have hstep := isNormal_flatMap hspans hs fun span hspan alt halt =>
        (hspans.alternatives span hspan).fill (hs.alternatives alt halt)
      have hnext := ih hstep hrest
      rw [List.flatMap_assoc] at hnext
      simpa [expandFrom, hparent, hspans.all_isEmpty, spread_parent _ hparent, List.flatMap_map]
        using hnext
    · have hstep : IsNormal ⟨spans.map fun span => span.append alt⟩ := by
        refine ⟨by simpa using hspans.ne_nil, ?_⟩
        intro out hmem
        obtain ⟨span, hspan, rfl⟩ := List.mem_map.1 hmem
        exact (hspans.alternatives span hspan).append (hs.alternatives alt (by simp [halt]))
      have hnext := ih hstep hrest
      rw [List.flatMap_map] at hnext
      simpa [expandFrom, hparent, halt, spread_single _ hparent halt] using hnext
    · obtain ⟨a, b, more, halts⟩ := hlist.exists_alternatives
      simp [expandFrom, hlist.1, halts, spread_list _ hlist]

/-- The same from the root on, where only a selector without `&` can stand. -/
theorem expandFrom_root_eq_spread {s : Selector} {rest : List Selector}
    (hchain : ∀ t ∈ s :: rest, t.IsNormal) (hfirst : s.hasParent = false) :
    expandFrom [[]] (s :: rest) = .ok (spread [] (s :: rest)) := by
  have hs : s.IsNormal := hchain s (by simp)
  have hrest : ∀ t ∈ rest, t.IsNormal := fun t ht => hchain t (List.mem_cons_of_mem s ht)
  rcases hs.kinds with hparent | ⟨_, alt, halt⟩ | hlist
  · exact absurd hparent (by simp [hfirst])
  · have hspans : IsNormal ⟨[alt]⟩ := halt ▸ ⟨hs.ne_nil, hs.alternatives⟩
    have hnext := expandFrom_eq_spread hspans hrest
    simpa [expandFrom, hfirst, halt, spread_single _ hfirst halt] using hnext
  · obtain ⟨a, b, more, halts⟩ := hlist.exists_alternatives
    simp [expandFrom, hfirst, halts, spread_list _ hlist]

theorem isNormal_spread_root {s : Selector} {rest : List Selector}
    (hchain : ∀ t ∈ s :: rest, t.IsNormal) (hfirst : s.hasParent = false) :
    IsNormal ⟨spread [] (s :: rest)⟩ := by
  have hs : s.IsNormal := hchain s (by simp)
  have hrest : ∀ t ∈ rest, t.IsNormal := fun t ht => hchain t (List.mem_cons_of_mem s ht)
  rcases hs.kinds with hparent | ⟨_, alt, halt⟩ | hlist
  · exact absurd hparent (by simp [hfirst])
  · rw [spread_single [] hfirst halt, Alternative.append_nil_left]
    exact isNormal_spread (hs.alternatives alt (by simp [halt])) hrest
  · rw [spread_list [] hlist]
    refine ⟨by simpa using hs.ne_nil, ?_⟩
    intro out hout
    obtain ⟨alt, hmem, rfl⟩ := List.mem_map.1 hout
    rw [Alternative.append_nil_left]
    exact isNormal_foldl_fold (hs.alternatives alt hmem) hrest

theorem expand_of_length_le {chain : List Selector} (h : chain.length ≤ 6) :
    expand chain = (expandFrom [[]] chain).map ofAlternatives := by
  unfold expand
  rw [if_neg (by simp [Limit.max]; omega)]

theorem expand_of_length_gt {chain : List Selector} (h : 6 < chain.length) :
    expand chain = .error (.limitExceeded .nestingDepth (" ".intercalate (chain.map text))) := by
  unfold expand
  rw [if_pos (by simpa [Limit.max] using h)]

theorem expand_eq_spread {s : Selector} {rest : List Selector} (hchain : ∀ t ∈ s :: rest, t.IsNormal)
    (hfirst : s.hasParent = false) (hlen : (s :: rest).length ≤ 6) :
    expand (s :: rest) = .ok ⟨spread [] (s :: rest)⟩ := by
  rw [expand_of_length_le hlen, expandFrom_root_eq_spread hchain hfirst]
  exact congrArg Except.ok (ofAlternatives_eq_self (isNormal_spread_root hchain hfirst).alternatives)

/-- A chain of at most six normal selectors that starts without `&` is expanded. -/
theorem expand_ok {s : Selector} {rest : List Selector} (hchain : ∀ t ∈ s :: rest, t.IsNormal)
    (hfirst : s.hasParent = false) (hlen : (s :: rest).length ≤ 6) :
    ∃ flat, expand (s :: rest) = .ok flat ∧ flat.IsNormal :=
  ⟨_, expand_eq_spread hchain hfirst hlen, isNormal_spread_root hchain hfirst⟩

theorem expand_of_hasParent {s : Selector} (h : s.hasParent = true) {rest : List Selector}
    (hlen : (s :: rest).length ≤ 6) : expand (s :: rest) = .error (.parentOutsideRule s.text) := by
  rw [expand_of_length_le hlen]
  simp [expandFrom, h, Except.map]

theorem expand_error_iff {s : Selector} {rest : List Selector}
    (hchain : ∀ t ∈ s :: rest, t.IsNormal) :
    (∃ e, expand (s :: rest) = .error e) ↔ s.hasParent = true ∨ 6 < (s :: rest).length := by
  by_cases hlen : (s :: rest).length ≤ 6
  · cases hfirst : s.hasParent with
    | true => exact ⟨fun _ => .inl rfl, fun _ => ⟨_, expand_of_hasParent hfirst hlen⟩⟩
    | false =>
      rw [expand_eq_spread hchain hfirst hlen]
      constructor
      · rintro ⟨e, he⟩
        cases he
      · rintro (h | h)
        · cases h
        · omega
  · exact ⟨fun _ => .inr (by omega), fun _ => ⟨_, expand_of_length_gt (by omega)⟩⟩

/-- A rule that nothing is around keeps its selector. -/
theorem expand_singleton {s : Selector} (hs : s.IsNormal) (hfirst : s.hasParent = false) :
    expand [s] = .ok s := by
  rw [expand_eq_spread (by simpa using hs) hfirst (by simp)]
  rcases hs.kinds with hparent | ⟨_, alt, halt⟩ | hlist
  · exact absurd hparent (by simp [hfirst])
  · rw [spread_single [] hfirst halt, Alternative.append_nil_left, spread, ← halt]
  · simp [spread_list [] hlist]

/-! ## Chains in two parts -/

theorem spread_append {chain : List Selector} (hchain : ∀ s ∈ chain, s.IsNormal)
    (hplain : ∀ s ∈ chain, ¬ s.IsPlainList) (span : Alternative) (later : List Selector) :
    spread span (chain ++ later) = (spread span chain).flatMap fun out => spread out later := by
  induction chain generalizing span with
  | nil => simp [spread]
  | cons s rest ih =>
    have hrest := ih (fun t ht => hchain t (List.mem_cons_of_mem s ht))
      fun t ht => hplain t (List.mem_cons_of_mem s ht)
    rcases (hchain s (by simp)).kinds with hparent | ⟨hparent, alt, halt⟩ | hlist
    · rw [List.cons_append, spread_parent span hparent, spread_parent span hparent, List.flatMap_assoc]
      exact List.flatMap_congr fun alt _ => hrest (alt.fill span)
    · rw [List.cons_append, spread_single span hparent halt, spread_single span hparent halt]
      exact hrest (span.append alt)
    · exact absurd hlist (hplain s (by simp))

/-- After a list without `&` nothing is multiplied out any more. -/
theorem spread_append_of_list {chain : List Selector} (hchain : ∀ s ∈ chain, s.IsNormal)
    (hlist : ∃ s ∈ chain, s.IsPlainList) (span : Alternative) (later : List Selector) :
    spread span (chain ++ later) =
      (spread span chain).map fun out => later.foldl Alternative.fold out := by
  induction chain generalizing span with
  | nil => simp at hlist
  | cons s rest ih =>
    have hrest := ih fun t ht => hchain t (List.mem_cons_of_mem s ht)
    have hlater : ¬ s.IsPlainList → ∃ t ∈ rest, t.IsPlainList := by
      intro hs
      obtain ⟨t, ht, hplain⟩ := hlist
      rcases List.mem_cons.1 ht with rfl | ht
      · exact absurd hplain hs
      · exact ⟨t, ht, hplain⟩
    rcases (hchain s (by simp)).kinds with hparent | ⟨hparent, alt, halt⟩ | hs
    · have hnext := hrest (hlater (not_isPlainList_of_hasParent hparent))
      rw [List.cons_append, spread_parent span hparent, spread_parent span hparent, List.map_flatMap]
      exact List.flatMap_congr fun alt _ => hnext (alt.fill span)
    · have hnext := hrest (hlater (not_isPlainList_of_single halt))
      rw [List.cons_append, spread_single span hparent halt, spread_single span hparent halt]
      exact hnext (span.append alt)
    · rw [List.cons_append, spread_list span hs, spread_list span hs, List.map_map]
      simp [List.foldl_append]

end Stylesheet.Selector
