import Mathlib.Data.List.Chain
import Mathlib.Data.List.DropRight
import Stylesheet.Selector.Expansion

/-!
# Normal alternatives

An alternative is normal if it is not empty, has no space at its ends and never two spaces in a row.

* `Alternative.IsNormal`: the form. `Alternative.isNormal_normalize` and
  `Alternative.IsNormal.normalize_eq`: normalizing reaches it and leaves it alone.
* `Selector.IsNormal`: a selector with an alternative, all of them normal; these are the non-empty
  results of `Selector.ofAlternatives` (`Selector.isNormal_iff`).
* `IsNormal.fill`, `IsNormal.append`, `IsNormal.fold`: every step of an expansion keeps the form.
-/

namespace Stylesheet

namespace Alternative

/-- One of two neighbours is no space. -/
def Apart (p q : Piece) : Prop := p.isSpace = false ∨ q.isSpace = false

/-- Not empty, no space at either end, and never two in a row. -/
structure IsNormal (alt : Alternative) : Prop where
  ne_nil : alt ≠ []
  head : ∀ p ∈ alt.head?, p.isSpace = false
  last : ∀ p ∈ alt.getLast?, p.isSpace = false
  apart : alt.IsChain Apart

/-! ## Normalizing -/

theorem trimEnd_eq_rdropWhile (alt : Alternative) : trimEnd alt = alt.rdropWhile Piece.isSpace := rfl

theorem squeeze_true_space (rest : Alternative) : squeeze true (.space :: rest) = squeeze true rest := by
  simp [squeeze]

theorem squeeze_false_space (rest : Alternative) :
    squeeze false (.space :: rest) = .space :: squeeze true rest := by
  simp [squeeze]

theorem squeeze_of_not_space (after : Bool) {p : Piece} (hp : p.isSpace = false) (rest : Alternative) :
    squeeze after (p :: rest) = p :: squeeze false rest := by
  cases p with
  | space => cases hp
  | _ => simp [squeeze]

/-- After a space no space follows. -/
theorem head_squeeze_true (alt : Alternative) : ∀ p ∈ (squeeze true alt).head?, p.isSpace = false := by
  induction alt with
  | nil => simp [squeeze]
  | cons q rest ih =>
    by_cases hq : q.isSpace = true
    · obtain rfl : q = .space := by cases q <;> simp_all [Piece.isSpace]
      rw [squeeze_true_space]
      exact ih
    · rw [squeeze_of_not_space true (by simpa using hq)]
      intro p hp
      obtain rfl : q = p := by simpa using hp
      simpa using hq

theorem isChain_squeeze (after : Bool) (alt : Alternative) : (squeeze after alt).IsChain Apart := by
  induction alt generalizing after with
  | nil => simp [squeeze]
  | cons q rest ih =>
    by_cases hq : q.isSpace = true
    · obtain rfl : q = .space := by cases q <;> simp_all [Piece.isSpace]
      cases after with
      | true =>
        rw [squeeze_true_space]
        exact ih true
      | false =>
        rw [squeeze_false_space]
        exact (ih true).cons fun p hp => Or.inr (head_squeeze_true rest p hp)
    · have hq' : q.isSpace = false := by simpa using hq
      rw [squeeze_of_not_space after hq']
      exact (ih false).cons fun p _ => Or.inl hq'

/-- A run with no two spaces in a row is left alone, unless a space would follow one. -/
theorem squeeze_eq_self (after : Bool) (alt : Alternative) (hchain : alt.IsChain Apart)
    (hhead : after = true → ∀ p ∈ alt.head?, p.isSpace = false) : squeeze after alt = alt := by
  induction alt generalizing after with
  | nil => simp [squeeze]
  | cons q rest ih =>
    obtain ⟨hnext, hrest⟩ := List.isChain_cons.1 hchain
    by_cases hq : q.isSpace = true
    · obtain rfl : q = .space := by cases q <;> simp_all [Piece.isSpace]
      cases after with
      | true => exact absurd (hhead rfl .space (by simp)) (by simp [Piece.isSpace])
      | false =>
        rw [squeeze_false_space, ih true hrest]
        intro _ p hp
        exact (hnext p hp).resolve_left (by simp [Piece.isSpace])
    · rw [squeeze_of_not_space after (by simpa using hq), ih false hrest (by simp)]

theorem isNormal_normalize (alt : Alternative) (h : normalize alt ≠ []) : (normalize alt).IsNormal := by
  obtain ⟨t, ht⟩ : normalize alt <+: squeeze true alt := List.rdropWhile_prefix _ _
  refine ⟨h, ?_, ?_, ?_⟩
  · intro p hp
    refine head_squeeze_true alt p ?_
    rw [← ht, List.head?_append_of_ne_nil _ h]
    exact hp
  · intro p hp
    rw [List.getLast?_eq_some_getLast h, Option.mem_some_iff] at hp
    subst hp
    have hlast := List.rdropWhile_last_not Piece.isSpace (squeeze true alt) h
    exact Bool.eq_false_iff.2 hlast
  · have hchain := isChain_squeeze true alt
    rw [← ht] at hchain
    exact hchain.left_of_append

theorem IsNormal.trimEnd_eq {alt : Alternative} (h : alt.IsNormal) : trimEnd alt = alt := by
  rw [trimEnd_eq_rdropWhile, List.rdropWhile_eq_self_iff]
  intro hne
  simpa using h.last _ (List.getLast_mem_getLast? hne)

theorem IsNormal.normalize_eq {alt : Alternative} (h : alt.IsNormal) : normalize alt = alt := by
  unfold normalize
  rw [squeeze_eq_self true alt h.apart fun _ => h.head, h.trimEnd_eq]

/-- One space before and one after an alternative in normal form make no difference. -/
theorem IsNormal.normalize_around {alt : Alternative} (h : alt.IsNormal) {lead trail : Alternative}
    (hlead : lead = [] ∨ lead = [.space]) (htrail : trail = [] ∨ trail = [.space]) :
    normalize (lead ++ alt ++ trail) = alt := by
  have hsqueeze : squeeze true (lead ++ alt ++ trail) = squeeze true (alt ++ trail) := by
    rcases hlead with rfl | rfl
    · rw [List.nil_append]
    · rw [List.append_assoc, List.singleton_append, squeeze_true_space]
  rw [normalize, hsqueeze]
  rcases htrail with rfl | rfl
  · rw [List.append_nil]
    exact h.normalize_eq
  · have hchain : (alt ++ [Piece.space]).IsChain Apart := by
      refine List.isChain_append.2 ⟨h.apart, by simp, fun p hp q hq => ?_⟩
      exact Or.inl (h.last p hp)
    have hhead : ∀ p ∈ (alt ++ [Piece.space]).head?, p.isSpace = false := by
      rw [List.head?_append_of_ne_nil _ h.ne_nil]
      exact h.head
    rw [squeeze_eq_self true _ hchain fun _ => hhead, trimEnd_eq_rdropWhile,
      List.rdropWhile_concat_pos _ _ _ rfl, ← trimEnd_eq_rdropWhile, h.trimEnd_eq]

/-! ## Steps of an expansion -/

/-- Two normal runs with a space between them. -/
theorem IsNormal.append_space {a b : Alternative} (ha : a.IsNormal) (hb : b.IsNormal) :
    IsNormal (a ++ .space :: b) := by
  refine ⟨by simp, ?_, ?_, ?_⟩
  · rw [List.head?_append_of_ne_nil _ ha.ne_nil]
    exact ha.head
  · rw [List.getLast?_append_of_ne_nil _ (by simp), List.getLast?_cons_of_ne_nil hb.ne_nil]
    exact hb.last
  · refine ha.apart.append (hb.apart.cons fun q hq => Or.inr (hb.head q hq)) ?_
    intro p hp q _
    exact Or.inl (ha.last p hp)

theorem IsNormal.append_eq {span : Alternative} (h : span.IsNormal) (alt : Alternative) :
    append span alt = span ++ .space :: alt := by
  have hempty : span.isEmpty = false := by simpa using h.ne_nil
  have hlast : span.getLast?.any Piece.isSpace = false := by
    rw [List.getLast?_eq_some_getLast h.ne_nil, Option.any_some]
    exact h.last _ (List.getLast_mem_getLast? h.ne_nil)
  simp [Alternative.append, hempty, hlast]

@[simp] theorem append_nil_left (alt : Alternative) : append [] alt = alt := by
  simp [Alternative.append]

theorem IsNormal.append {span alt : Alternative} (hspan : span.IsNormal) (halt : alt.IsNormal) :
    (Alternative.append span alt).IsNormal := by
  rw [hspan.append_eq]
  exact hspan.append_space halt

/-- What a piece becomes when `span` takes the place of the parent reference. -/
def fillPiece (span : Alternative) : Piece → Alternative
  | .parent => span
  | piece => [piece]

theorem IsNormal.fill_eq {span : Alternative} (h : span.IsNormal) (alt : Alternative) :
    fill alt span = alt.flatMap (fillPiece span) := by
  unfold fill
  congr 1
  funext p
  cases p <;> simp [fillPiece, h.trimEnd_eq]

theorem IsNormal.fillPiece_ne_nil {span : Alternative} (h : span.IsNormal) (p : Piece) :
    fillPiece span p ≠ [] := by
  cases p <;> simp [fillPiece, h.ne_nil]

/-- The ends of what takes the place of a piece are spaces only if the piece is one. -/
theorem IsNormal.fillPiece_ends {span : Alternative} (h : span.IsNormal) {p : Piece}
    (hp : p.isSpace = false) {q : Piece}
    (hq : q ∈ (fillPiece span p).head? ∨ q ∈ (fillPiece span p).getLast?) : q.isSpace = false := by
  cases p with
  | space => cases hp
  | parent => exact hq.elim (h.head q) (h.last q)
  | word s => simp [fillPiece] at hq; subst hq; rfl
  | value v => simp [fillPiece] at hq; subst hq; rfl

theorem IsNormal.isChain_fillPiece {span : Alternative} (h : span.IsNormal) (p : Piece) :
    (fillPiece span p).IsChain Apart := by
  cases p with
  | parent => exact h.apart
  | _ => simp [fillPiece]

theorem head?_flatMap_cons {f : Piece → Alternative} (p : Piece) (rest : Alternative) (hp : f p ≠ []) :
    ((p :: rest).flatMap f).head? = (f p).head? := by
  rw [List.flatMap_cons, List.head?_append_of_ne_nil _ hp]

theorem getLast?_flatMap_concat {f : Piece → Alternative} (before : Alternative) (p : Piece)
    (hp : f p ≠ []) : ((before ++ [p]).flatMap f).getLast? = (f p).getLast? := by
  rw [List.flatMap_append, List.flatMap_singleton, List.getLast?_append_of_ne_nil _ hp]

theorem IsNormal.fill {span alt : Alternative} (hspan : span.IsNormal) (halt : alt.IsNormal) :
    (Alternative.fill alt span).IsNormal := by
  rw [hspan.fill_eq]
  have hpiece := hspan.fillPiece_ne_nil
  refine ⟨?_, ?_, ?_, ?_⟩
  · obtain ⟨p, rest, rfl⟩ := List.exists_cons_of_ne_nil halt.ne_nil
    simp [hpiece p]
  · obtain ⟨p, rest, rfl⟩ := List.exists_cons_of_ne_nil halt.ne_nil
    intro q hq
    rw [head?_flatMap_cons p rest (hpiece p)] at hq
    exact hspan.fillPiece_ends (halt.head p (by simp)) (.inl hq)
  · obtain ⟨before, p, rfl⟩ := List.eq_nil_or_concat' alt |>.resolve_left halt.ne_nil
    intro q hq
    rw [getLast?_flatMap_concat before p (hpiece p)] at hq
    exact hspan.fillPiece_ends (halt.last p (by simp)) (.inr hq)
  · rw [List.flatMap_def, List.isChain_flatten]
    · refine ⟨?_, ?_⟩
      · intro l hl
        obtain ⟨p, _, rfl⟩ := List.mem_map.1 hl
        exact hspan.isChain_fillPiece p
      · refine List.isChain_map_of_isChain (fillPiece span) ?_ halt.apart
        intro p q hpq x hx y hy
        exact hpq.imp (fun h => hspan.fillPiece_ends h (.inr hx))
          (fun h => hspan.fillPiece_ends h (.inl hy))
    · intro hmem
      obtain ⟨p, _, hp⟩ := List.mem_map.1 hmem
      exact hpiece p hp

/-- Normal runs one after the other, a space between each two. -/
theorem isNormal_intercalate {alts : List Alternative} (hne : alts ≠ [])
    (h : ∀ alt ∈ alts, IsNormal alt) : IsNormal ([Piece.space].intercalate alts) := by
  induction alts with
  | nil => exact absurd rfl hne
  | cons a rest ih =>
    cases rest with
    | nil => simpa using h a (by simp)
    | cons b rest =>
      have hrest := ih (by simp) fun alt hmem => h alt (List.mem_cons_of_mem a hmem)
      rw [List.intercalate_cons_cons, List.append_assoc, List.singleton_append]
      exact (h a (by simp)).append_space hrest

end Alternative

/-! ## Selectors -/

namespace Selector

/-- There is an alternative, and all of them are normal. -/
structure IsNormal (s : Selector) : Prop where
  ne_nil : s.alternatives ≠ []
  alternatives : ∀ alt ∈ s.alternatives, Alternative.IsNormal alt

/-- Alternatives in normal form stay as they are. -/
theorem ofAlternatives_eq_self {alts : List Alternative} (h : ∀ alt ∈ alts, Alternative.IsNormal alt) :
    ofAlternatives alts = ⟨alts⟩ := by
  have hmap : alts.map Alternative.normalize = alts.map id :=
    List.map_congr_left fun alt hmem => (h alt hmem).normalize_eq
  unfold ofAlternatives
  rw [hmap, List.map_id, List.filter_eq_self.2]
  intro alt hmem
  simpa using (h alt hmem).ne_nil

theorem mem_ofAlternatives {alts : List Alternative} {alt : Alternative}
    (h : alt ∈ (ofAlternatives alts).alternatives) : alt.IsNormal := by
  obtain ⟨hmem, hne⟩ := List.mem_filter.1 h
  obtain ⟨raw, _, rfl⟩ := List.mem_map.1 hmem
  exact Alternative.isNormal_normalize raw (by simpa using hne)

/-- The normal selectors are the non-empty results of `ofAlternatives`. -/
theorem isNormal_iff (s : Selector) :
    s.IsNormal ↔ s.isEmpty = false ∧ ∃ alts, s = ofAlternatives alts := by
  constructor
  · intro h
    exact ⟨by simpa [isEmpty] using h.ne_nil, s.alternatives, (ofAlternatives_eq_self h.alternatives).symm⟩
  · rintro ⟨hne, alts, rfl⟩
    exact ⟨by simpa [isEmpty] using hne, fun alt hmem => mem_ofAlternatives hmem⟩

theorem built_of_eq_self {s : Selector} (hne : s.isEmpty = false)
    (h : ofAlternatives s.alternatives = s) : s.isEmpty = false ∧ ∃ alts, s = ofAlternatives alts :=
  ⟨hne, s.alternatives, h.symm⟩

end Selector

/-- A later selector folded into a normal run gives a normal run. -/
theorem Alternative.IsNormal.fold {span : Alternative} (hspan : span.IsNormal) {later : Selector}
    (hlater : later.IsNormal) : (Alternative.fold span later).IsNormal := by
  have hfolded : Alternative.IsNormal ([Piece.space].intercalate (later.alternatives.map fun alt =>
      if alt.hasParent then alt.fill span else alt)) := by
    refine isNormal_intercalate (by simpa using hlater.ne_nil) ?_
    intro alt hmem
    obtain ⟨raw, hraw, rfl⟩ := List.mem_map.1 hmem
    have hnormal := hlater.alternatives raw hraw
    split
    · exact hspan.fill hnormal
    · exact hnormal
  unfold Alternative.fold
  simp only
  split
  · exact hfolded
  · exact hspan.append hfolded

end Stylesheet
