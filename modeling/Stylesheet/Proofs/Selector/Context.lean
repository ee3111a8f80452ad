import Mathlib.Data.List.Infix
import Stylesheet.Proofs.Selector.Ancestry

/-!
# Where the outermost selector is kept

Every step of an expansion keeps the span that it starts from in one piece, with one exception. Where
some alternatives of a selector have `&`, the others are taken as they are, and whatever is around
them is lost. Once a list without `&` has been multiplied out there is no such step any more.

* `infix_fill`, `infix_append`, `infix_fold`: the steps that keep a span.
* `Detached`: what comes from an alternative without `&` beside one with `&`. Such an alternative is
  expanded as if it stood at the root.
* `expand_keeps_context`: all else has an alternative of the first selector in it.
-/

namespace Stylesheet

namespace Alternative

/-! ## Steps that keep a span -/

theorem infix_fill {span alt : Alternative} (hspan : span.IsNormal) (halt : alt.hasParent = true) :
    span <:+: alt.fill span := by
  obtain ⟨piece, hmem, hpiece⟩ := List.any_eq_true.1 halt
  cases piece with
  | parent =>
    rw [hspan.fill_eq]
    exact List.infix_flatMap_of_mem hmem (fillPiece span)
  | _ => cases hpiece

theorem infix_append (span alt : Alternative) : span <:+: span.append alt := by
  unfold Alternative.append
  split
  · exact (List.prefix_append span alt).isInfix
  · exact (List.prefix_append span _).isInfix

theorem infix_intercalate {alts : List Alternative} {alt : Alternative} (h : alt ∈ alts) :
    alt <:+: [Piece.space].intercalate alts := by
  induction alts with
  | nil => simp at h
  | cons a rest ih =>
    cases rest with
    | nil => simp_all
    | cons b rest =>
      rw [List.intercalate_cons_cons, List.append_assoc]
      rcases List.mem_cons.1 h with rfl | h
      · exact (List.prefix_append alt _).isInfix
      · exact ((ih h).trans (List.suffix_append _ _).isInfix).trans (List.suffix_append a _).isInfix

theorem infix_fold {span : Alternative} (hspan : span.IsNormal) (later : Selector) :
    span <:+: span.fold later := by
  rw [fold_eq]
  split
  · rename_i hparent
    -- All alternatives are folded in, so that one of them with `&` suffices.
    obtain ⟨alt, hmem, halt⟩ := List.any_eq_true.1 hparent
    exact (infix_fill hspan halt).trans (infix_intercalate (List.mem_map_of_mem hmem))
  · exact infix_append span _

end Alternative

namespace Selector

theorem infix_foldl_fold {span : Alternative} (hspan : span.IsNormal) {rest : List Selector}
    (hrest : ∀ t ∈ rest, t.IsNormal) : span <:+: rest.foldl Alternative.fold span := by
  induction rest generalizing span with
  | nil => exact List.infix_rfl
  | cons t rest ih =>
    have hnext := ih (hspan.fold (hrest t List.mem_cons_self)) fun u hu =>
      hrest u (List.mem_cons_of_mem t hu)
    exact (Alternative.infix_fold hspan t).trans hnext

/-! ## The step that does not -/

/-- An alternative without `&`, in a selector with `&` that no list without `&` stands around, is
expanded with the selectors below it as if nothing was around it. -/
def Detached (chain : List Selector) (out : Alternative) : Prop :=
  ∃ outer s inner alt, chain = outer ++ s :: inner ∧ (∀ t ∈ outer, ¬ t.IsPlainList) ∧
    s.hasParent = true ∧ alt ∈ s.alternatives ∧ alt.hasParent = false ∧
    ∃ flat, expand (⟨[alt]⟩ :: inner) = .ok flat ∧ out ∈ flat.alternatives

theorem expand_alternative {alt : Alternative} (halt : alt.IsNormal) (hparent : alt.hasParent = false)
    {inner : List Selector} (hinner : ∀ t ∈ inner, t.IsNormal) (hlen : inner.length < 6) :
    expand (⟨[alt]⟩ :: inner) = .ok ⟨spread alt inner⟩ := by
  have hs : IsNormal ⟨[alt]⟩ := ⟨by simp, by simpa using halt⟩
  have hfirst : hasParent ⟨[alt]⟩ = false := by simpa [hasParent] using hparent
  rw [expand_eq_spread (List.forall_mem_cons.2 ⟨hs, hinner⟩) hfirst hlen, spread_single [] hfirst rfl,
    Alternative.append_nil_left]

theorem Detached.cons {s : Selector} (hs : ¬ s.IsPlainList) {chain : List Selector} {out : Alternative}
    (h : Detached chain out) : Detached (s :: chain) out := by
  obtain ⟨outer, t, inner, alt, rfl, hplain, hrest⟩ := h
  exact ⟨s :: outer, t, inner, alt, rfl, List.forall_mem_cons.2 ⟨hs, hplain⟩, hrest⟩

/-- Nothing is detached by a selector without `&`, nor below a list. -/
theorem Detached.of_cons {s : Selector} (hs : s.hasParent = false) {chain : List Selector}
    {out : Alternative} (h : Detached (s :: chain) out) : ¬ s.IsPlainList ∧ Detached chain out := by
  obtain ⟨outer, t, inner, alt, heq, hplain, hparent, hrest⟩ := h
  cases outer with
  | nil =>
    cases heq
    simp [hs] at hparent
  | cons u outer =>
    cases heq
    obtain ⟨hu, houter⟩ := List.forall_mem_cons.1 hplain
    exact ⟨hu, outer, t, inner, alt, rfl, houter, hparent, hrest⟩

/-- What a chain makes of a span has the span in it, or was detached from it. -/
theorem infix_or_detached {span : Alternative} (hspan : span.IsNormal) {chain : List Selector}
    (hchain : ∀ s ∈ chain, s.IsNormal) (hlen : chain.length ≤ 6) {out : Alternative}
    (hout : out ∈ spread span chain) : span <:+: out ∨ Detached chain out := by
  induction chain generalizing span with
  | nil =>
    obtain rfl : out = span := by simpa [spread] using hout
    exact .inl List.infix_rfl
  | cons s rest ih =>
    have hs : s.IsNormal := hchain s List.mem_cons_self
    have hrest : ∀ t ∈ rest, t.IsNormal := fun t ht => hchain t (List.mem_cons_of_mem s ht)
    have hshort : rest.length < 6 := hlen
    rcases hs.kinds with hparent | ⟨hparent, alt, halt⟩ | hlist
    · have hplain := not_isPlainList_of_hasParent hparent
      rw [spread_parent span hparent] at hout
      obtain ⟨alt, hmem, hout⟩ := List.mem_flatMap.1 hout
      have hnormal := hs.alternatives alt hmem
      cases halt : alt.hasParent with
      | true =>
        rcases ih (hspan.fill hnormal) hrest hshort.le hout with hkept | hdetached
        · exact .inl ((Alternative.infix_fill hspan halt).trans hkept)
        · exact .inr (hdetached.cons hplain)
      | false =>
        rw [Alternative.fill_of_not_hasParent halt] at hout
        refine .inr ⟨[], s, rest, alt, rfl, by simp, hparent, hmem, halt, _, ?_, hout⟩
        exact expand_alternative hnormal halt hrest hshort
    · have hplain := not_isPlainList_of_single halt
      rw [spread_single span hparent halt] at hout
      have hnormal := hspan.append (hs.alternatives alt (by simp [halt]))
      rcases ih hnormal hrest hshort.le hout with hkept | hdetached
      · exact .inl ((Alternative.infix_append span alt).trans hkept)
      · exact .inr (hdetached.cons hplain)
    · -- Below a list the remaining selectors are folded in, which detaches nothing.
      rw [spread_list span hlist] at hout
      obtain ⟨alt, hmem, rfl⟩ := List.mem_map.1 hout
      have hnormal := hspan.append (hs.alternatives alt hmem)
      exact .inl ((Alternative.infix_append span alt).trans (infix_foldl_fold hnormal hrest))

theorem mem_spread_of_detached {span : Alternative} (hspan : span.IsNormal) {chain : List Selector}
    (hchain : ∀ s ∈ chain, s.IsNormal) (hlen : chain.length ≤ 6) {out : Alternative}
    (h : Detached chain out) : out ∈ spread span chain := by
  obtain ⟨outer, s, inner, alt, rfl, hplain, hparent, hmem, halt, flat, hflat, hout⟩ := h
  have houter : ∀ t ∈ outer, t.IsNormal := fun t ht => hchain t (by simp [ht])
  have hs : s.IsNormal := hchain s (by simp)
  have hinner : ∀ t ∈ inner, t.IsNormal := fun t ht => hchain t (by simp [ht])
  have hshort : inner.length < 6 := by
    simp only [List.length_append, List.length_cons] at hlen
    omega
  rw [expand_alternative (hs.alternatives alt hmem) halt hinner hshort] at hflat
  cases hflat
  -- Whatever span reaches the selector, the alternative does not take it up.
  obtain ⟨reached, hreached⟩ := List.exists_mem_of_ne_nil _ (isNormal_spread hspan houter).ne_nil
  rw [spread_append houter hplain, List.mem_flatMap]
  refine ⟨reached, hreached, ?_⟩
  rw [spread_parent reached hparent, List.mem_flatMap]
  exact ⟨alt, hmem, by rwa [Alternative.fill_of_not_hasParent halt]⟩

/-! ## Whole chains -/

/-- A chain that starts without `&` and is not too long is expanded, and every alternative of the
result has an alternative of the first selector in it, unless it is detached; those that are detached
are all there. -/
theorem expand_keeps_context (first : Selector) (rest : List Selector)
    (hlen : (first :: rest).length ≤ 6)
    (hbuilt : ∀ s ∈ first :: rest, s.isEmpty = false ∧ ∃ alts, s = ofAlternatives alts)
    (hfirst : first.hasParent = false) :
    ∃ flat, expand (first :: rest) = .ok flat ∧
      (∀ out ∈ flat.alternatives,
        (∃ alt ∈ first.alternatives, alt <:+: out) ∨ Detached (first :: rest) out) ∧
      ∀ out, Detached (first :: rest) out → out ∈ flat.alternatives := by
  have hchain : ∀ s ∈ first :: rest, s.IsNormal := fun s hs => (isNormal_iff s).2 (hbuilt s hs)
  have hs : first.IsNormal := hchain first List.mem_cons_self
  have hrest : ∀ t ∈ rest, t.IsNormal := fun t ht => hchain t (List.mem_cons_of_mem first ht)
  refine ⟨_, expand_eq_spread hchain hfirst hlen, ?_⟩
  rcases hs.kinds with hparent | ⟨-, alt, halt⟩ | hlist
  · simp [hfirst] at hparent
  · have hmem : alt ∈ first.alternatives := by simp [halt]
    have hnormal := hs.alternatives alt hmem
    have hshort : rest.length ≤ 6 := Nat.le_of_succ_le hlen
    rw [spread_single [] hfirst halt, Alternative.append_nil_left]
    constructor
    · intro out hout
      rcases infix_or_detached hnormal hrest hshort hout with hkept | hdetached
      · exact .inl ⟨alt, hmem, hkept⟩
      · exact .inr (hdetached.cons (not_isPlainList_of_single halt))
    · intro out hdetached
      exact mem_spread_of_detached hnormal hrest hshort (hdetached.of_cons hfirst).2
  · rw [spread_list [] hlist]
    constructor
    · intro out hout
      obtain ⟨alt, hmem, rfl⟩ := List.mem_map.1 hout
      rw [Alternative.append_nil_left]
      exact .inl ⟨alt, hmem, infix_foldl_fold (hs.alternatives alt hmem) hrest⟩
    · intro out hdetached
      exact absurd hlist (hdetached.of_cons hfirst).1

/-- Below a list, a selector with `&` in only one of its alternatives detaches nothing. -/
theorem expand_keeps_context_below_list :
    ∃ flat, expand [⟨[[.word "p"], [.word "q"]]⟩, ⟨[[.parent, .word ".a"], [.word "b"]]⟩] = .ok flat ∧
      ∀ out ∈ flat.alternatives, [.word "p"] <:+: out ∨ [.word "q"] <:+: out := by
  obtain ⟨flat, hflat, hkept, -⟩ := expand_keeps_context ⟨[[.word "p"], [.word "q"]]⟩
    [⟨[[.parent, .word ".a"], [.word "b"]]⟩] (by decide) (List.forall_mem_cons.2
      ⟨built_of_eq_self rfl rfl, List.forall_mem_singleton.2 (built_of_eq_self rfl rfl)⟩) rfl
  refine ⟨flat, hflat, fun out hout => ?_⟩
  rcases hkept out hout with hfirst | hdetached
  · simpa using hfirst
  · exact absurd ⟨rfl, by decide⟩ (hdetached.of_cons rfl).1

/-- Under `div`, the second alternative of `&.a, b` is not below `div`. -/
theorem expand_drops_context :
    ¬ ∀ (first : Selector) (rest : List Selector), (first :: rest).length ≤ 6 →
      (∀ s ∈ first :: rest, s.isEmpty = false ∧ ∃ alts, s = ofAlternatives alts) →
      first.hasParent = false → ∀ flat, expand (first :: rest) = .ok flat →
      ∀ out ∈ flat.alternatives, ∃ alt ∈ first.alternatives, alt <:+: out := by
  intro hkeeps
  have hbare : [Piece.word "b"] ∈ [[Piece.word "div", .word ".a"], [.word "b"]] := by simp
  obtain ⟨alt, hmem, hinfix⟩ := hkeeps ⟨[[.word "div"]]⟩ [⟨[[.parent, .word ".a"], [.word "b"]]⟩]
    (by decide) (List.forall_mem_cons.2
      ⟨built_of_eq_self rfl rfl, List.forall_mem_singleton.2 (built_of_eq_self rfl rfl)⟩) rfl _ rfl _ hbare
  obtain rfl : alt = [.word "div"] := by simpa using hmem
  have heq := hinfix.eq_of_length rfl
  simp at heq

end Selector

end Stylesheet
