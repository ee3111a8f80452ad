import Mathlib.Algebra.BigOperators.Group.List.Basic
import Stylesheet.Proofs.Selector.Levels

/-!
# The shape of an expansion

A chain is expanded unless it is too long or starts with `&`. What it is expanded to is normal and has
no `&` left, and it has one alternative for each way to choose an alternative of every selector up to
the first list without `&`: no alternative is lost on the way, and none is added.

* `multiplied`: the selectors of a chain whose alternatives are multiplied out.
* `length_spread`: how many alternatives a span becomes along a chain.
* `expand_outcome`: when a chain cannot be expanded, and the shape of the selector if it can.
-/

namespace Stylesheet.Selector

instance (s : Selector) : Decidable s.IsPlainList :=
  inferInstanceAs (Decidable (s.hasParent = false ∧ 1 < s.size))

/-- The selectors of a chain up to the first list without `&`, or all of them if there is none. -/
def multiplied : List Selector → List Selector
  | [] => []
  | s :: rest => if s.IsPlainList then [s] else s :: multiplied rest

theorem multiplied_list {s : Selector} (h : s.IsPlainList) (rest : List Selector) :
    multiplied (s :: rest) = [s] := by
  simp [multiplied, h]

theorem multiplied_cons {s : Selector} (h : ¬ s.IsPlainList) (rest : List Selector) :
    multiplied (s :: rest) = s :: multiplied rest := by
  simp [multiplied, h]

/-! ## Counting alternatives -/

theorem length_spread (span : Alternative) {chain : List Selector}
    (hchain : ∀ s ∈ chain, s.IsNormal) :
    (spread span chain).length = ((multiplied chain).map size).prod := by
  induction chain generalizing span with
  | nil => simp [spread, multiplied]
  | cons s rest ih =>
    have hrest := fun span => ih span fun t ht => hchain t (List.mem_cons_of_mem s ht)
    rcases (hchain s List.mem_cons_self).kinds with hparent | ⟨hparent, alt, halt⟩ | hlist
    · rw [multiplied_cons (not_isPlainList_of_hasParent hparent), spread_parent span hparent,
        List.length_flatMap, List.map_cons, List.prod_cons]
      simp only [hrest]
      rw [List.map_const', List.sum_replicate_nat, size]
    · have hsize : s.size = 1 := by simp [size, halt]
      rw [multiplied_cons (not_isPlainList_of_single halt), spread_single span hparent halt, hrest,
        List.map_cons, List.prod_cons, hsize, Nat.one_mul]
    · simp [multiplied_list hlist, spread_list span hlist, size]

/-! ## Outcomes -/

theorem parent_not_mem {alt : Alternative} (h : alt.hasParent = false) : Piece.parent ∉ alt := by
  intro hmem
  have hparent : alt.hasParent = true := List.any_eq_true.2 ⟨.parent, hmem, rfl⟩
  simp [h] at hparent

/-- A chain of non-empty selectors fails to be expanded exactly if it is longer than six, or else if
its first selector has `&`. If it does not fail, all alternatives that it is expanded to are normal
and without `&`, and there are as many as there are ways to choose from the selectors up to the first
list without `&`. -/
theorem expand_outcome (first : Selector) (rest : List Selector)
    (hbuilt : ∀ s ∈ first :: rest, s.isEmpty = false ∧ ∃ alts, s = ofAlternatives alts) :
    ((∃ detail, expand (first :: rest) = .error (.limitExceeded .nestingDepth detail)) ↔
      6 < (first :: rest).length) ∧
    ((first :: rest).length ≤ 6 →
      ((∃ detail, expand (first :: rest) = .error (.parentOutsideRule detail)) ↔
        first.hasParent = true) ∧
      (first.hasParent = false → ∃ flat, expand (first :: rest) = .ok flat ∧
        (∀ alt ∈ flat.alternatives, alt.IsNormal ∧ Piece.parent ∉ alt) ∧
        flat.size = ((multiplied (first :: rest)).map size).prod)) := by
  have hchain : ∀ s ∈ first :: rest, s.IsNormal := fun s hs => (isNormal_iff s).2 (hbuilt s hs)
  by_cases hlen : (first :: rest).length ≤ 6
  · have hlong : ¬ 6 < (first :: rest).length := Nat.not_lt.2 hlen
    cases hfirst : first.hasParent with
    | true =>
      have hfails := expand_of_hasParent hfirst hlen
      rw [hfails]
      exact ⟨by simpa using hlong, fun _ => ⟨by simp, by simp⟩⟩
    | false =>
      have hflat := expand_eq_spread hchain hfirst hlen
      have hnormal := isNormal_spread_root hchain hfirst
      have hroot : Alternative.hasParent [] = false := rfl
      have hparent := hasParent_spread hroot hchain
      rw [hflat]
      refine ⟨by simpa using hlong, fun _ => ⟨by simp, fun _ => ⟨_, rfl, ?_, ?_⟩⟩⟩
      · intro alt hmem
        exact ⟨hnormal.alternatives alt hmem, parent_not_mem (hparent alt hmem)⟩
      · exact length_spread [] hchain
  · have hlong : 6 < (first :: rest).length := Nat.lt_of_not_le hlen
    exact ⟨⟨fun _ => hlong, fun _ => ⟨_, expand_of_length_gt hlong⟩⟩, fun h => absurd h hlen⟩

/-- Two spans of the selector with `&` times three alternatives of the first plain list; the list
below it, which has `&` again, adds none. -/
theorem expand_outcome_six :
    ∃ flat, expand [⟨[[.word "nav"]]⟩, ⟨[[.parent, .word ".x"], [.word "b"]]⟩,
        ⟨[[.word "p"], [.word "q"], [.word "i", .space, .word "j"]]⟩,
        ⟨[[.word "c"], [.parent, .word ":d"]]⟩] = .ok flat ∧
      (∀ alt ∈ flat.alternatives, alt.IsNormal ∧ Piece.parent ∉ alt) ∧ flat.size = 6 := by
  refine ((expand_outcome _ _ ?_).2 (by decide)).2 rfl
  simp only [List.forall_mem_cons]
  exact ⟨built_of_eq_self rfl rfl, built_of_eq_self rfl rfl, built_of_eq_self rfl rfl,
    built_of_eq_self rfl rfl, by simp⟩

end Stylesheet.Selector
