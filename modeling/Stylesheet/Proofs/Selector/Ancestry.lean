import Mathlib.Algebra.Order.BigOperators.Group.List
import Mathlib.Algebra.Order.Ring.Nat
import Mathlib.Data.List.Forall2
import Stylesheet.Css.Basic
import Stylesheet.Proofs.Selector.Spread

/-!
# A chain shows in its expansion

Whatever stands around a chain makes what is written for it longer, so a chain is never written like
the same chain with some of its outer selectors left out.

* `width`: how many characters an alternative is written with.
* `AtLeast`, `Longer`: a normal span against a normal span that is not wider, or narrower. All steps
  of an expansion keep the first, and those that use the span keep the second.
* `Exceeds`: as many spans, none of them narrower and one of them wider.
* `css_expand_append_ne`: a chain and a proper end of it are written differently.
-/

namespace Stylesheet

namespace Alternative

/-- How many characters an alternative is written with. -/
def width (alt : Alternative) : Nat := (alt.map fun piece => piece.css.length).sum

@[simp] theorem width_concat (a b : Alternative) : width (a ++ b) = width a + width b := by
  simp [width]

@[simp] theorem width_space_cons (alt : Alternative) : width (.space :: alt) = 1 + width alt :=
  rfl

@[simp] theorem width_space : width [.space] = 1 := rfl

theorem width_flatMap (alt : Alternative) (f : Piece → Alternative) :
    width (alt.flatMap f) = (alt.map fun piece => width (f piece)).sum := by
  induction alt with
  | nil => rfl
  | cons piece rest ih => rw [List.flatMap_cons, width_concat, ih, List.map_cons, List.sum_cons]

theorem length_css (alt : Alternative) : (String.join (alt.map Piece.css)).length = alt.width := by
  rw [String.length_join, List.map_map]
  rfl

/-- Two normal spans, the second one not wider. -/
structure AtLeast (p q : Alternative) : Prop where
  left : p.IsNormal
  right : q.IsNormal
  le : q.width ≤ p.width

/-- Two normal spans, the second one narrower. -/
structure Longer (p q : Alternative) : Prop where
  left : p.IsNormal
  right : q.IsNormal
  lt : q.width < p.width

theorem Longer.atLeast {p q : Alternative} (h : Longer p q) : AtLeast p q :=
  ⟨h.left, h.right, h.lt.le⟩

theorem Longer.css_ne {p q : Alternative} (h : Longer p q) :
    String.join (p.map Piece.css) ≠ String.join (q.map Piece.css) := by
  intro heq
  have hwidth := h.lt
  rw [← length_css, ← length_css, heq] at hwidth
  exact lt_irrefl _ hwidth

/-! ## One step -/

theorem width_fill {span : Alternative} (hspan : span.IsNormal) (alt : Alternative) :
    (alt.fill span).width = (alt.map fun piece => (fillPiece span piece).width).sum := by
  rw [hspan.fill_eq, width_flatMap]

theorem width_fillPiece_le {p q : Alternative} (h : q.width ≤ p.width) (piece : Piece) :
    (fillPiece q piece).width ≤ (fillPiece p piece).width := by
  cases piece with
  | parent => exact h
  | _ => exact le_refl _

theorem AtLeast.fill {p q : Alternative} (h : AtLeast p q) {alt : Alternative} (halt : alt.IsNormal) :
    AtLeast (alt.fill p) (alt.fill q) := by
  refine ⟨h.left.fill halt, h.right.fill halt, ?_⟩
  rw [width_fill h.left, width_fill h.right]
  exact List.sum_le_sum fun piece _ => width_fillPiece_le h.le piece

theorem Longer.fill {p q : Alternative} (h : Longer p q) {alt : Alternative} (halt : alt.IsNormal)
    (hparent : alt.hasParent = true) : Longer (alt.fill p) (alt.fill q) := by
  refine ⟨h.left.fill halt, h.right.fill halt, ?_⟩
  rw [width_fill h.left, width_fill h.right]
  refine List.sum_lt_sum _ _ (fun piece _ => width_fillPiece_le h.lt.le piece) ?_
  obtain ⟨piece, hmem, hpiece⟩ := List.any_eq_true.1 hparent
  refine ⟨piece, hmem, ?_⟩
  cases piece with
  | parent => exact h.lt
  | _ => cases hpiece

theorem width_append {span : Alternative} (hspan : span.IsNormal) (alt : Alternative) :
    (span.append alt).width = span.width + 1 + alt.width := by
  rw [hspan.append_eq, width_concat, width_space_cons]
  omega

theorem AtLeast.append {p q a b : Alternative} (h : AtLeast p q) (hab : AtLeast a b) :
    AtLeast (p.append a) (q.append b) := by
  refine ⟨h.left.append hab.left, h.right.append hab.right, ?_⟩
  rw [width_append h.left, width_append h.right]
  have := h.le
  have := hab.le
  omega

theorem Longer.append {p q a b : Alternative} (h : Longer p q) (hab : AtLeast a b) :
    Longer (p.append a) (q.append b) := by
  refine ⟨h.left.append hab.left, h.right.append hab.right, ?_⟩
  rw [width_append h.left, width_append h.right]
  have := h.lt
  have := hab.le
  omega

theorem longer_append {p alt : Alternative} (hp : p.IsNormal) (halt : alt.IsNormal) :
    Longer (p.append alt) alt := by
  refine ⟨hp.append halt, halt, ?_⟩
  rw [width_append hp]
  omega

theorem AtLeast.refl {alt : Alternative} (h : alt.IsNormal) : AtLeast alt alt := ⟨h, h, le_refl _⟩

/-! ## Folding in a later selector -/

theorem fill_of_not_hasParent {alt : Alternative} (h : alt.hasParent = false) (span : Alternative) :
    alt.fill span = alt := by
  induction alt with
  | nil => rfl
  | cons piece rest ih =>
    rw [hasParent, List.any_cons, Bool.or_eq_false_iff] at h
    have hrest : rest.flatMap _ = rest := ih h.2
    unfold Alternative.fill
    rw [List.flatMap_cons, hrest]
    cases piece with
    | parent => exact absurd h.1 (by simp [Piece.isParent])
    | _ => rfl

/-- The alternatives of a later selector around a span, one after the other. -/
def filled (span : Alternative) (later : Selector) : Alternative :=
  [Piece.space].intercalate (later.alternatives.map fun alt => alt.fill span)

theorem fold_eq (span : Alternative) (later : Selector) :
    span.fold later =
      if later.hasParent then filled span later else span.append (filled span later) := by
  have hmap : (later.alternatives.map fun alt => if alt.hasParent then alt.fill span else alt) =
      later.alternatives.map fun alt => alt.fill span := by
    refine List.map_congr_left fun alt _ => ?_
    cases h : alt.hasParent with
    | true => rfl
    | false => exact (fill_of_not_hasParent h span).symm
  unfold Alternative.fold filled
  rw [hmap]

theorem width_intercalate_space {alts : List Alternative} (hne : alts ≠ []) :
    width ([Piece.space].intercalate alts) + 1 = (alts.map fun alt => alt.width + 1).sum := by
  induction alts with
  | nil => exact absurd rfl hne
  | cons a rest ih =>
    cases rest with
    | nil => simp
    | cons b rest =>
      have hrest := ih (by simp)
      rw [List.intercalate_cons_cons, width_concat, width_concat, width_space, List.map_cons,
        List.sum_cons, ← hrest]
      omega

theorem width_filled {later : Selector} (hlater : later.IsNormal) (span : Alternative) :
    (filled span later).width + 1 =
      (later.alternatives.map fun alt => (alt.fill span).width + 1).sum := by
  unfold filled
  rw [width_intercalate_space (by simpa using hlater.ne_nil), List.map_map]
  rfl

theorem isNormal_filled {span : Alternative} (hspan : span.IsNormal) {later : Selector}
    (hlater : later.IsNormal) : (filled span later).IsNormal := by
  refine isNormal_intercalate (by simpa using hlater.ne_nil) fun alt hmem => ?_
  obtain ⟨raw, hraw, rfl⟩ := List.mem_map.1 hmem
  exact hspan.fill (hlater.alternatives raw hraw)

theorem AtLeast.filled {p q : Alternative} (h : AtLeast p q) {later : Selector}
    (hlater : later.IsNormal) : AtLeast (filled p later) (filled q later) := by
  refine ⟨isNormal_filled h.left hlater, isNormal_filled h.right hlater, ?_⟩
  have hsum : (later.alternatives.map fun alt => (alt.fill q).width + 1).sum ≤
      (later.alternatives.map fun alt => (alt.fill p).width + 1).sum :=
    List.sum_le_sum fun alt hmem => Nat.succ_le_succ (h.fill (hlater.alternatives alt hmem)).le
  rw [← width_filled hlater, ← width_filled hlater] at hsum
  omega

theorem Longer.filled {p q : Alternative} (h : Longer p q) {later : Selector}
    (hlater : later.IsNormal) (hparent : later.hasParent = true) :
    Longer (Alternative.filled p later) (Alternative.filled q later) := by
  refine ⟨isNormal_filled h.left hlater, isNormal_filled h.right hlater, ?_⟩
  obtain ⟨alt, hmem, halt⟩ := List.any_eq_true.1 hparent
  have hsum : (later.alternatives.map fun alt => (alt.fill q).width + 1).sum <
      (later.alternatives.map fun alt => (alt.fill p).width + 1).sum :=
    List.sum_lt_sum _ _
      (fun a ha => Nat.succ_le_succ (h.atLeast.fill (hlater.alternatives a ha)).le)
      ⟨alt, hmem, Nat.succ_lt_succ (h.fill (hlater.alternatives alt hmem) halt).lt⟩
  rw [← width_filled hlater, ← width_filled hlater] at hsum
  omega

theorem Longer.fold {p q : Alternative} (h : Longer p q) {later : Selector} (hlater : later.IsNormal) :
    Longer (p.fold later) (q.fold later) := by
  rw [fold_eq, fold_eq]
  cases hparent : later.hasParent with
  | true => exact h.filled hlater hparent
  | false => exact h.append (h.atLeast.filled hlater)

theorem AtLeast.fold {p q : Alternative} (h : AtLeast p q) {later : Selector}
    (hlater : later.IsNormal) : AtLeast (p.fold later) (q.fold later) := by
  rw [fold_eq, fold_eq]
  cases hparent : later.hasParent with
  | true => exact h.filled hlater
  | false => exact h.append (h.filled hlater)

theorem atLeast_filled {p : Alternative} (hp : p.IsNormal) {later : Selector} (hlater : later.IsNormal)
    {alt : Alternative} (hmem : alt ∈ later.alternatives) :
    AtLeast (Alternative.filled p later) (alt.fill p) := by
  refine ⟨isNormal_filled hp hlater, hp.fill (hlater.alternatives alt hmem), ?_⟩
  have hlength := width_filled hlater p
  have hle : (alt.fill p).width + 1 ≤
      (later.alternatives.map fun alt => (alt.fill p).width + 1).sum :=
    List.single_le_sum (by simp) _ (List.mem_map_of_mem hmem)
  omega

theorem Longer.append_fold {p q : Alternative} (h : Longer p q) {later : Selector}
    (hlater : later.IsNormal) (hparent : later.hasParent = false) {alt : Alternative}
    (hmem : alt ∈ later.alternatives) : Longer (p.fold later) (q.append alt) := by
  have halt : alt.hasParent = false := Selector.hasParent_eq_false hparent hmem
  have hfilled := atLeast_filled h.left hlater hmem
  rw [fill_of_not_hasParent halt] at hfilled
  rw [fold_eq, hparent]
  exact h.append hfilled

/-- Each alternative of a later selector takes up less room than all of them folded together. -/
theorem Longer.fill_fold {p q : Alternative} (h : Longer p q) {later : Selector}
    (hlater : later.IsNormal) (hparent : later.hasParent = true) {alt : Alternative}
    (hmem : alt ∈ later.alternatives) : Longer (p.fold later) (alt.fill q) := by
  have hfold : p.fold later = Alternative.filled p later := by simp [fold_eq, hparent]
  have hfill := h.atLeast.fill (hlater.alternatives alt hmem)
  refine ⟨hfold ▸ isNormal_filled h.left hlater, hfill.right, ?_⟩
  have hwidth := width_filled hlater p
  rw [hfold]
  by_cases halt : alt.hasParent = true
  · exact (h.fill (hlater.alternatives alt hmem) halt).lt.trans_le (atLeast_filled h.left hlater hmem).le
  · obtain ⟨other, hother, hparent'⟩ := List.any_eq_true.1 hparent
    -- The other alternative stands on one side of this one.
    obtain ⟨before, after, hsplit⟩ := List.append_of_mem hmem
    have hpos : ∀ alts : List Alternative, other ∈ alts →
        1 ≤ (alts.map fun alt => (alt.fill p).width + 1).sum := by
      intro alts halts
      refine le_trans (Nat.le_add_left 1 (other.fill p).width) ?_
      exact List.single_le_sum (by simp) _ (List.mem_map_of_mem halts)
    rw [hsplit, List.map_append, List.map_cons, List.sum_append, List.sum_cons] at hwidth
    rw [hsplit] at hother
    have hle := hfill.le
    rcases List.mem_append.1 hother with hbefore | hafter
    · have := hpos before hbefore
      omega
    · rcases List.mem_cons.1 hafter with rfl | hafter
      · exact absurd hparent' halt
      · have := hpos after hafter
        omega

end Alternative

namespace Selector

open Stylesheet.Alternative

/-! ## Lists of spans -/

/-- As many spans on both sides; none of the first is shorter than its partner and one is longer. -/
inductive Exceeds : List Alternative → List Alternative → Prop
  | here {p q : Alternative} {ps qs : List Alternative} (h : Longer p q)
      (hrest : List.Forall₂ AtLeast ps qs) : Exceeds (p :: ps) (q :: qs)
  | there {p q : Alternative} {ps qs : List Alternative} (h : AtLeast p q) (hrest : Exceeds ps qs) :
      Exceeds (p :: ps) (q :: qs)

theorem Exceeds.length_eq {ps qs : List Alternative} (h : Exceeds ps qs) : ps.length = qs.length := by
  induction h with
  | here _ hrest => simpa using hrest.length_eq
  | there _ _ ih => simpa using ih

theorem Exceeds.css_ne {ps qs : List Alternative} (h : Exceeds ps qs) :
    css ⟨ps⟩ ≠ css ⟨qs⟩ := by
  induction h with
  | here h _ => exact fun heq => h.css_ne (List.cons.inj heq).1
  | there _ _ ih => exact fun heq => ih (List.cons.inj heq).2

theorem Exceeds.append {ps qs ps' qs' : List Alternative} (h : Exceeds ps qs)
    (h' : List.Forall₂ AtLeast ps' qs') : Exceeds (ps ++ ps') (qs ++ qs') := by
  induction h with
  | here h hrest => exact .here h (List.rel_append hrest h')
  | there h _ ih => exact .there h ih

theorem Exceeds.append_left {ps qs ps' qs' : List Alternative} (h : List.Forall₂ AtLeast ps qs)
    (h' : Exceeds ps' qs') : Exceeds (ps ++ ps') (qs ++ qs') := by
  induction h with
  | nil => exact h'
  | cons h _ ih => exact .there h ih

theorem forall₂_flatMap {alts : List Alternative} {f g : Alternative → List Alternative}
    (h : ∀ alt ∈ alts, List.Forall₂ AtLeast (f alt) (g alt)) :
    List.Forall₂ AtLeast (alts.flatMap f) (alts.flatMap g) := by
  induction alts with
  | nil => exact .nil
  | cons a rest ih =>
    rw [List.flatMap_cons, List.flatMap_cons]
    exact List.rel_append (h a (by simp)) (ih fun alt hmem => h alt (List.mem_cons_of_mem a hmem))

/-- One alternative that exceeds is enough. -/
theorem exceeds_flatMap {alts : List Alternative} {f g : Alternative → List Alternative}
    (h : ∀ alt ∈ alts, List.Forall₂ AtLeast (f alt) (g alt)) {a : Alternative} (ha : a ∈ alts)
    (hexceeds : Exceeds (f a) (g a)) : Exceeds (alts.flatMap f) (alts.flatMap g) := by
  induction alts with
  | nil => cases ha
  | cons b rest ih =>
    have hrest : ∀ alt ∈ rest, List.Forall₂ AtLeast (f alt) (g alt) :=
      fun alt hmem => h alt (List.mem_cons_of_mem b hmem)
    rw [List.flatMap_cons, List.flatMap_cons]
    rcases List.mem_cons.1 ha with rfl | ha
    · exact hexceeds.append (forall₂_flatMap hrest)
    · exact Exceeds.append_left (h b (by simp)) (ih hrest ha)

/-! ## Along a chain -/

theorem atLeast_foldl_fold {p q : Alternative} (h : AtLeast p q) {rest : List Selector}
    (hrest : ∀ t ∈ rest, t.IsNormal) :
    AtLeast (rest.foldl Alternative.fold p) (rest.foldl Alternative.fold q) := by
  induction rest generalizing p q with
  | nil => exact h
  | cons t rest ih =>
    exact ih (h.fold (hrest t (by simp))) fun u hu => hrest u (List.mem_cons_of_mem t hu)

theorem longer_foldl_fold {p q : Alternative} (h : Longer p q) {rest : List Selector}
    (hrest : ∀ t ∈ rest, t.IsNormal) :
    Longer (rest.foldl Alternative.fold p) (rest.foldl Alternative.fold q) := by
  induction rest generalizing p q with
  | nil => exact h
  | cons t rest ih =>
    exact ih (h.fold (hrest t (by simp))) fun u hu => hrest u (List.mem_cons_of_mem t hu)

theorem atLeast_spread {p q : Alternative} (h : AtLeast p q) {chain : List Selector}
    (hchain : ∀ s ∈ chain, s.IsNormal) :
    List.Forall₂ AtLeast (spread p chain) (spread q chain) := by
  induction chain generalizing p q with
  | nil => exact .cons h .nil
  | cons s rest ih =>
    have hs : s.IsNormal := hchain s (by simp)
    have hrest : ∀ t ∈ rest, t.IsNormal := fun t ht => hchain t (List.mem_cons_of_mem s ht)
    rcases hs.kinds with hparent | ⟨hparent, alt, halt⟩ | hlist
    · rw [spread_parent p hparent, spread_parent q hparent]
      exact forall₂_flatMap fun alt hmem => ih (h.fill (hs.alternatives alt hmem)) hrest
    · rw [spread_single p hparent halt, spread_single q hparent halt]
      exact ih (h.append (.refl (hs.alternatives alt (by simp [halt])))) hrest
    · rw [spread_list p hlist, spread_list q hlist, List.map_eq_flatMap, List.map_eq_flatMap]
      refine forall₂_flatMap fun alt hmem => .cons ?_ .nil
      exact atLeast_foldl_fold (h.append (.refl (hs.alternatives alt hmem))) hrest

theorem exceeds_spread {p q : Alternative} (h : Longer p q) {chain : List Selector}
    (hchain : ∀ s ∈ chain, s.IsNormal) : Exceeds (spread p chain) (spread q chain) := by
  induction chain generalizing p q with
  | nil => exact .here h .nil
  | cons s rest ih =>
    have hs : s.IsNormal := hchain s (by simp)
    have hrest : ∀ t ∈ rest, t.IsNormal := fun t ht => hchain t (List.mem_cons_of_mem s ht)
    rcases hs.kinds with hparent | ⟨hparent, alt, halt⟩ | hlist
    · obtain ⟨alt, hmem, halt⟩ := List.any_eq_true.1 hparent
      rw [spread_parent p hparent, spread_parent q hparent]
      refine exceeds_flatMap (fun a ha => atLeast_spread (h.atLeast.fill (hs.alternatives a ha)) hrest)
        hmem ?_
      exact ih (h.fill (hs.alternatives alt hmem) halt) hrest
    · rw [spread_single p hparent halt, spread_single q hparent halt]
      exact ih (h.append (.refl (hs.alternatives alt (by simp [halt])))) hrest
    · have hlonger : ∀ alt ∈ s.alternatives, Longer (rest.foldl Alternative.fold (p.append alt))
          (rest.foldl Alternative.fold (q.append alt)) := fun alt hmem =>
        longer_foldl_fold (h.append (.refl (hs.alternatives alt hmem))) hrest
      obtain ⟨alt, hmem⟩ := List.exists_mem_of_ne_nil _ hs.ne_nil
      rw [spread_list p hlist, spread_list q hlist, List.map_eq_flatMap, List.map_eq_flatMap]
      exact exceeds_flatMap (fun a ha => .cons (hlonger a ha).atLeast .nil) hmem
        (.here (hlonger alt hmem) .nil)

/-- A span in front of a chain that starts without `&` exceeds no span at all. -/
theorem exceeds_spread_root {p : Alternative} (hp : p.IsNormal) {s : Selector} {rest : List Selector}
    (hchain : ∀ t ∈ s :: rest, t.IsNormal) (hfirst : s.hasParent = false) :
    Exceeds (spread p (s :: rest)) (spread [] (s :: rest)) := by
  have hs : s.IsNormal := hchain s (by simp)
  have hrest : ∀ t ∈ rest, t.IsNormal := fun t ht => hchain t (List.mem_cons_of_mem s ht)
  rcases hs.kinds with hparent | ⟨_, alt, halt⟩ | hlist
  · exact absurd hparent (by simp [hfirst])
  · rw [spread_single p hfirst halt, spread_single [] hfirst halt, append_nil_left]
    exact exceeds_spread (longer_append hp (hs.alternatives alt (by simp [halt]))) hrest
  · have hlonger : ∀ alt ∈ s.alternatives, Longer (rest.foldl Alternative.fold (p.append alt))
        (rest.foldl Alternative.fold (Alternative.append [] alt)) := by
      intro alt hmem
      rw [append_nil_left]
      exact longer_foldl_fold (longer_append hp (hs.alternatives alt hmem)) hrest
    obtain ⟨alt, hmem⟩ := List.exists_mem_of_ne_nil _ hs.ne_nil
    rw [spread_list p hlist, spread_list [] hlist, List.map_eq_flatMap, List.map_eq_flatMap]
    exact exceeds_flatMap (fun a ha => .cons (hlonger a ha).atLeast .nil) hmem
      (.here (hlonger alt hmem) .nil)

/-- Folding keeps everything in one span, which stays longer than each of several. -/
theorem longer_fold_spread {p q : Alternative} (h : Longer p q) {chain : List Selector}
    (hchain : ∀ s ∈ chain, s.IsNormal) :
    ∀ out ∈ spread q chain, Longer (chain.foldl Alternative.fold p) out := by
  induction chain generalizing p q with
  | nil =>
    intro out hout
    rw [spread, List.mem_singleton] at hout
    exact hout ▸ h
  | cons s rest ih =>
    have hs : s.IsNormal := hchain s (by simp)
    have hrest : ∀ t ∈ rest, t.IsNormal := fun t ht => hchain t (List.mem_cons_of_mem s ht)
    intro out hout
    rw [List.foldl_cons]
    rcases hs.kinds with hparent | ⟨hparent, alt, halt⟩ | hlist
    · rw [spread_parent q hparent] at hout
      obtain ⟨alt, hmem, hout⟩ := List.mem_flatMap.1 hout
      exact ih (h.fill_fold hs hparent hmem) hrest out hout
    · rw [spread_single q hparent halt] at hout
      exact ih (h.append_fold hs hparent (by simp [halt])) hrest out hout
    · rw [spread_list q hlist] at hout
      obtain ⟨alt, hmem, rfl⟩ := List.mem_map.1 hout
      exact longer_foldl_fold (h.append_fold hs hlist.1 hmem) hrest

theorem longer_fold_spread_root {p : Alternative} (hp : p.IsNormal) {s : Selector}
    {rest : List Selector} (hchain : ∀ t ∈ s :: rest, t.IsNormal) (hfirst : s.hasParent = false) :
    ∀ out ∈ spread [] (s :: rest), Longer ((s :: rest).foldl Alternative.fold p) out := by
  have hs : s.IsNormal := hchain s (by simp)
  have hrest : ∀ t ∈ rest, t.IsNormal := fun t ht => hchain t (List.mem_cons_of_mem s ht)
  have hfold : ∀ alt ∈ s.alternatives, Longer (p.fold s) alt := by
    intro alt hmem
    have hfilled := atLeast_filled hp hs hmem
    rw [fill_of_not_hasParent (hasParent_eq_false hfirst hmem)] at hfilled
    have hlonger := longer_append hp hfilled.left
    rw [fold_eq, hfirst]
    exact ⟨hlonger.left, hfilled.right, hfilled.le.trans_lt hlonger.lt⟩
  intro out hout
  rw [List.foldl_cons]
  rcases hs.kinds with hparent | ⟨_, alt, halt⟩ | hlist
  · exact absurd hparent (by simp [hfirst])
  · rw [spread_single [] hfirst halt, append_nil_left] at hout
    exact longer_fold_spread (hfold alt (by simp [halt])) hrest out hout
  · rw [spread_list [] hlist] at hout
    obtain ⟨alt, hmem, rfl⟩ := List.mem_map.1 hout
    rw [append_nil_left]
    exact longer_foldl_fold (hfold alt hmem) hrest

/-! ## Whole chains -/

/-- What stands around a chain shows in every way that the chain can be expanded. -/
theorem css_spread_append_ne {s t : Selector} {outer rest : List Selector}
    (hchain : ∀ u ∈ (s :: outer) ++ t :: rest, u.IsNormal) (hs : s.hasParent = false)
    (ht : t.hasParent = false) :
    css ⟨spread [] ((s :: outer) ++ t :: rest)⟩ ≠ css ⟨spread [] (t :: rest)⟩ := by
  have houter : ∀ u ∈ s :: outer, u.IsNormal := fun u hu => hchain u (List.mem_append_left _ hu)
  have hinner : ∀ u ∈ t :: rest, u.IsNormal := fun u hu => hchain u (List.mem_append_right _ hu)
  have hspans := isNormal_spread_root houter hs
  obtain ⟨p, ps, hps⟩ : ∃ p ps, spread [] (s :: outer) = p :: ps :=
    List.exists_cons_of_ne_nil hspans.ne_nil
  have hp : p.IsNormal := hspans.alternatives p (hps ▸ List.mem_cons_self)
  by_cases hlist : ∃ u ∈ s :: outer, u.IsPlainList
  · -- The chain is folded into the first span, and is wider there than it is anywhere by itself.
    rw [spread_append_of_list houter hlist, hps, List.map_cons]
    intro heq
    have hmem : String.join (((t :: rest).foldl Alternative.fold p).map Piece.css) ∈
        css ⟨spread [] (t :: rest)⟩ := heq ▸ List.mem_cons_self
    obtain ⟨out, hout, hcss⟩ := List.mem_map.1 hmem
    exact (longer_fold_spread_root hp hinner ht out hout).css_ne hcss.symm
  · -- The chain goes on from the first span, and exceeds there what it is by itself.
    have hplain : ∀ u ∈ s :: outer, ¬ u.IsPlainList := fun u hu h => hlist ⟨u, hu, h⟩
    rw [spread_append houter hplain, hps, List.flatMap_cons]
    intro heq
    have hexceeds := exceeds_spread_root hp hinner ht
    have hnil : (ps.flatMap fun out => spread out (t :: rest)) = [] := by
      have hlength := congrArg List.length heq
      rw [css, css, List.length_map, List.length_map] at hlength
      change List.length (_ ++ _) = (spread [] (t :: rest)).length at hlength
      rw [List.length_append, hexceeds.length_eq] at hlength
      exact List.eq_nil_of_length_eq_zero (by omega)
    rw [hnil, List.append_nil] at heq
    exact hexceeds.css_ne heq

/-- A chain is not written like a proper end of it. -/
theorem css_expand_append_ne {outer inner : List Selector} (houter : outer ≠ []) (hinner : inner ≠ [])
    (hchain : ∀ u ∈ outer ++ inner, u.IsNormal) (hfirst : ∀ u ∈ outer.head?, u.hasParent = false) :
    (expand inner).map css ≠ (expand (outer ++ inner)).map css := by
  obtain ⟨s, outer, rfl⟩ := List.exists_cons_of_ne_nil houter
  obtain ⟨t, rest, rfl⟩ := List.exists_cons_of_ne_nil hinner
  have hs : s.hasParent = false := hfirst s rfl
  have htail : ∀ u ∈ t :: rest, u.IsNormal := fun u hu => hchain u (List.mem_append_right _ hu)
  by_cases hlen : ((s :: outer) ++ t :: rest).length ≤ 6
  · have hlen' : (t :: rest).length ≤ 6 := by
      rw [List.length_append] at hlen
      omega
    rw [List.cons_append, expand_eq_spread (by simpa using hchain) hs (by simpa using hlen)]
    cases ht : t.hasParent with
    | true =>
      rw [expand_of_hasParent ht hlen']
      intro heq
      cases heq
    | false =>
      rw [expand_eq_spread htail ht hlen']
      intro heq
      exact css_spread_append_ne hchain hs ht (Except.ok.inj heq).symm
  · rw [expand_of_length_gt (Nat.lt_of_not_le hlen)]
    by_cases hlen' : (t :: rest).length ≤ 6
    · cases ht : t.hasParent with
      | true =>
        rw [expand_of_hasParent ht hlen']
        intro heq
        cases heq
      | false =>
        rw [expand_eq_spread htail ht hlen']
        intro heq
        cases heq
    · -- Both are too long, and the report of the failure quotes the whole chain.
      rw [expand_of_length_gt (Nat.lt_of_not_le hlen')]
      intro heq
      have hdetail := (CompileError.limitExceeded.inj (Except.error.inj heq)).2
      rw [List.map_append] at hdetail
      rw [String.intercalate_append_of_ne_nil (by simp) (by simp)] at hdetail
      have hlength := congrArg String.length hdetail
      rw [String.length_append, String.length_append] at hlength
      have hspace : " ".length = 1 := rfl
      omega

end Selector

end Stylesheet
