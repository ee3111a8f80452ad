import Stylesheet.Proofs.Nesting.Tree
import Stylesheet.Proofs.Selector.Normal
import Stylesheet.Proofs.Token.Reading
import Stylesheet.Sheet.Reader

/-!
# Reading plain selectors

A selector that is laid out with any blanks is read as its words, one space between the words of each
alternative.

* `selectorOf`: the selector of some rows of words.
* `runs_selector`: what reading a laid out selector gives.
-/

namespace Stylesheet

namespace Nesting

/-- The pieces of an alternative. -/
def Row.pieces (row : Row Word) : Alternative :=
  .word row.first.text :: row.more.flatMap fun w => [.space, .word w.text]

/-- The selector of some alternatives. -/
def selectorOf (rows : Row (Row Word)) : Selector := ⟨rows.toList.map Row.pieces⟩

theorem Row.pieces_eq_intercalate (row : Row Word) :
    row.pieces = [Piece.space].intercalate (row.toList.map fun w => [.word w.text]) := by
  obtain ⟨first, more⟩ := row
  induction more generalizing first with
  | nil => rfl
  | cons w more ih =>
    have hrest := ih w
    simp only [pieces, toList, List.map_cons, List.flatMap_cons] at hrest ⊢
    rw [List.intercalate_cons_cons, ← hrest]
    rfl

theorem Row.mem_pieces {row : Row Word} {piece : Piece} (h : piece ∈ row.pieces) :
    piece = .space ∨ ∃ text, piece = .word text := by
  rcases List.mem_cons.1 h with rfl | h
  · exact .inr ⟨_, rfl⟩
  · obtain ⟨w, -, hw⟩ := List.mem_flatMap.1 h
    rcases List.mem_pair.1 hw with rfl | rfl
    · exact .inl rfl
    · exact .inr ⟨_, rfl⟩

theorem isNormal_word (text : String) : Alternative.IsNormal [.word text] :=
  ⟨by simp, by simp [Piece.isSpace], by simp [Piece.isSpace], by simp⟩

theorem Row.isNormal_pieces (row : Row Word) : row.pieces.IsNormal := by
  rw [row.pieces_eq_intercalate]
  refine Alternative.isNormal_intercalate (by simp [toList]) ?_
  intro alt halt
  obtain ⟨w, -, rfl⟩ := List.mem_map.1 halt
  exact isNormal_word w.text

theorem isNormal_selectorOf (rows : Row (Row Word)) : (selectorOf rows).IsNormal := by
  refine ⟨by simp [selectorOf, Row.toList], ?_⟩
  intro alt halt
  obtain ⟨row, -, rfl⟩ := List.mem_map.1 halt
  exact row.isNormal_pieces

/-! ## Tokens of a selector -/

/-- What a blank before a token leaves. -/
def IsPadding (pad : Alternative) : Prop := pad = [] ∨ pad = [.space]

section Steps

variable {r : Reader} {room n : Nat} {gap rest : List Char} {found : List Alternative}
  {current : Alternative} {Q : Selector → Reader → Prop}

open Reading

theorem padding_of_isCut {t : Token} {kind : TokenKind} {word : List Char}
    (ht : t.IsCut kind gap word rest) (current : Alternative) :
    ∃ pad, IsPadding pad ∧ (gap ≠ [] → pad = [.space]) ∧
      (if t.spaceBefore = true then .space :: current else current) = pad ++ current := by
  cases hspace : t.spaceBefore with
  | true => exact ⟨[.space], .inr rfl, fun _ => rfl, rfl⟩
  | false =>
    refine ⟨[], .inl rfl, fun hgap => ?_, rfl⟩
    rw [ht.spaceBefore hgap] at hspace
    cases hspace

theorem runs_selectorFrom_word {w : Word}
    (h : r.At .selector (gap ++ (w.text.toList ++ rest)) room) (hgap : IsGap gap)
    (hrest : EndsWord rest)
    (hQ : ∀ pad r', IsPadding pad → (gap ≠ [] → pad = [.space]) → r'.At .selector rest room →
      Runs (selectorFrom found (.word w.text :: (pad ++ current)) n) r' Q) :
    Runs (selectorFrom found current (n + 1)) r Q := by
  rw [selectorFrom]
  refine runs_bind (runs_require h.stands hgap (cut_word w.isWord hrest) (by decide) _ ?_)
  intro t r' ht hr'
  obtain ⟨pad, hpad, hspace, hcurrent⟩ := padding_of_isCut ht current
  rw [hcurrent, ht.kind, ht.text, String.ofList_toList]
  exact hQ pad r' hpad hspace hr'

theorem runs_selectorFrom_comma (h : r.At .selector (',' :: rest) room)
    (hQ : ∀ pad r', IsPadding pad → r'.At .selector rest room →
      Runs (selectorFrom ((pad ++ current).reverse :: found) [] n) r' Q) :
    Runs (selectorFrom found current (n + 1)) r Q := by
  rw [selectorFrom]
  have hat : r.At .selector ([] ++ ([','] ++ rest)) room := h
  refine runs_bind (runs_require hat.stands isGap_nil (cut_selector_comma rest) (by decide) _ ?_)
  intro t r' ht hr'
  obtain ⟨pad, hpad, -, hcurrent⟩ := padding_of_isCut ht current
  rw [hcurrent, ht.kind]
  exact hQ pad r' hpad hr'

theorem runs_selectorFrom_brace (h : r.At .selector (gap ++ '\x7b' :: rest) room) (hgap : IsGap gap)
    (hQ : ∀ pad r', IsPadding pad → r'.At .selector rest room →
      Q (.ofAlternatives ((pad ++ current).reverse :: found).reverse) r') :
    Runs (selectorFrom found current (n + 1)) r Q := by
  rw [selectorFrom]
  have hat : r.At .selector (gap ++ (['\x7b'] ++ rest)) room := h
  refine runs_bind (runs_require hat.stands hgap (cut_selector_leftBrace rest) (by decide) _ ?_)
  intro t r' ht hr'
  obtain ⟨pad, hpad, -, hcurrent⟩ := padding_of_isCut ht current
  rw [hcurrent, ht.kind]
  exact runs_pure (hQ pad r' hpad hr')

/-! ## Alternatives and selectors -/

-- Each token takes one step and at least one character, so the characters left bound the steps that
-- are needed.
theorem runs_selectorFrom_more {more : List Word} {tail : List Char}
    (htail : tail ∈ (more.map fun w => blank * exactly w.text).prod)
    (h : r.At .selector (tail ++ rest) room) (hrest : EndsWord rest) (hn : (tail ++ rest).length ≤ n)
    (hQ : ∀ n' r', rest.length ≤ n' → r'.At .selector rest room →
      Runs (selectorFrom found
        ((more.flatMap fun w => [Piece.space, .word w.text]).reverse ++ current) n') r' Q) :
    Runs (selectorFrom found current n) r Q := by
  induction more generalizing r n tail current with
  | nil =>
    rw [List.map_nil, List.prod_nil, Language.mem_one] at htail
    subst htail
    exact hQ n r hn h
  | cons w more ih =>
    obtain ⟨gap, hgap, _, rfl, tail, hmore, rfl⟩ := exists_of_mem_prod_cons htail
    have hlength := length_ne_zero_of_mem_blank hgap
    rw [List.append_assoc, List.append_assoc] at h hn
    rw [List.length_append, List.length_append] at hn
    obtain ⟨n, rfl⟩ : ∃ m, n = m + 1 := ⟨n - 1, by omega⟩
    refine runs_selectorFrom_word h hgap.2 (endsWord_of_mem_prod hmore hrest) ?_
    intro pad r' _ hpad hr'
    rw [hpad hgap.1]
    refine ih hmore hr' (by omega) ?_
    intro n' r'' hn' hr''
    have hnext := hQ n' r'' hn' hr''
    rw [List.flatMap_cons, List.reverse_append, List.append_assoc] at hnext
    exact hnext

/-- One alternative, read up to the comma or the blank after it. -/
theorem runs_selectorFrom_row {row : Row Word} {text : List Char}
    (htext : text ∈ row.layouts blank fun w => exactly w.text)
    (h : r.At .selector (gap ++ (text ++ rest)) room) (hgap : IsGap gap) (hrest : EndsWord rest)
    (hn : (text ++ rest).length ≤ n)
    (hQ : ∀ pad n' r', IsPadding pad → rest.length ≤ n' → r'.At .selector rest room →
      Runs (selectorFrom found (row.pieces.reverse ++ pad) n') r' Q) :
    Runs (selectorFrom found [] n) r Q := by
  obtain ⟨_, rfl, tail, htail, rfl⟩ := Language.mem_mul.1 htext
  rw [List.append_assoc] at h hn
  have hfirst := row.first.length_ne_zero
  rw [List.length_append] at hn
  obtain ⟨n, rfl⟩ : ∃ m, n = m + 1 := ⟨n - 1, by omega⟩
  refine runs_selectorFrom_word h hgap (endsWord_of_mem_prod htail hrest) ?_
  intro pad r' hpad _ hr'
  refine runs_selectorFrom_more htail hr' hrest (by omega) ?_
  intro n' r'' hn' hr''
  have hnext := hQ pad n' r'' hpad hn' hr''
  rw [Row.pieces, List.reverse_cons, List.append_assoc] at hnext
  rw [List.append_nil]
  exact hnext

theorem normalize_row (row : Row Word) {lead trail : Alternative} (hlead : IsPadding lead)
    (htrail : IsPadding trail) :
    Alternative.normalize (trail ++ (row.pieces.reverse ++ lead)).reverse = row.pieces := by
  have hreverse : ∀ {pad : Alternative}, IsPadding pad → IsPadding pad.reverse := by
    rintro pad (rfl | rfl)
    · exact .inl rfl
    · exact .inr rfl
  rw [List.reverse_append, List.reverse_append, List.reverse_reverse]
  exact row.isNormal_pieces.normalize_around (hreverse hlead) (hreverse htrail)

theorem ofAlternatives_concat (alts : List Alternative) {alt : Alternative} {row : Row Word}
    (h : alt.normalize = row.pieces) :
    (Selector.ofAlternatives (alts ++ [alt])).alternatives =
      (Selector.ofAlternatives alts).alternatives ++ [row.pieces] := by
  simp only [Selector.ofAlternatives, List.map_append, List.filter_append, List.map_cons,
    List.map_nil, h]
  rfl

-- The induction is on the alternatives after the first one; those before it are in `found`.
theorem runs_selectorFrom_rows {first : Row Word} {more : List (Row Word)}
    {text tail last : List Char} (htext : text ∈ first.layouts blank fun w => exactly w.text)
    (htail : tail ∈ (more.map fun row =>
      exactly "," * blank * row.layouts blank fun w => exactly w.text).prod)
    (hlast : last ∈ blank)
    (h : r.At .selector (gap ++ (text ++ (tail ++ (last ++ '\x7b' :: rest)))) room)
    (hgap : IsGap gap) (hn : (text ++ (tail ++ (last ++ '\x7b' :: rest))).length ≤ n)
    (hQ : ∀ s r', s.alternatives = (Selector.ofAlternatives found.reverse).alternatives ++
      (first :: more).map Row.pieces → r'.At .selector rest room → Q s r') :
    Runs (selectorFrom found [] n) r Q := by
  induction more generalizing first text tail found r n gap with
  | nil =>
    rw [List.map_nil, List.prod_nil, Language.mem_one] at htail
    subst htail
    refine runs_selectorFrom_row htext h hgap (endsWord_of_mem_blank hlast _) hn ?_
    intro lead n' r' hlead hn' hr'
    rw [List.nil_append, List.length_append, List.length_cons] at hn'
    obtain ⟨n', rfl⟩ : ∃ m, n' = m + 1 := ⟨n' - 1, by omega⟩
    refine runs_selectorFrom_brace hr' hlast.2 ?_
    intro trail r'' htrail hr''
    refine hQ _ r'' ?_ hr''
    rw [List.reverse_cons, ofAlternatives_concat _ (normalize_row first hlead htrail)]
    rfl
  | cons row more ih =>
    obtain ⟨_, hcomma, text', htext', tail, hmore, rfl⟩ := exists_of_mem_prod_cons htail
    obtain ⟨gap', hgap', rfl⟩ := exists_of_mem_comma hcomma
    have hsplit : ',' :: gap' ++ (text' ++ tail) ++ (last ++ '\x7b' :: rest) =
        ',' :: (gap' ++ (text' ++ (tail ++ (last ++ '\x7b' :: rest)))) := by
      simp
    rw [hsplit] at h hn
    refine runs_selectorFrom_row htext h hgap ?_ hn ?_
    · intro c hc
      cases hc
      exact .inr (.inr rfl)
    · intro lead n' r' hlead hn' hr'
      rw [List.length_cons, List.length_append] at hn'
      obtain ⟨n', rfl⟩ : ∃ m, n' = m + 1 := ⟨n' - 1, by omega⟩
      refine runs_selectorFrom_comma hr' ?_
      intro trail r'' htrail hr''
      refine ih htext' hmore hr'' hgap'.2 (by omega) ?_
      intro s r''' hs hr'''
      refine hQ s r''' ?_ hr'''
      rw [hs, List.reverse_cons, ofAlternatives_concat _ (normalize_row first hlead htrail),
        List.append_assoc]
      rfl

/-- A laid out selector and its opening brace. -/
theorem runs_selector {rows : Row (Row Word)} {text last : List Char}
    (htext : text ∈ rowsLayouts Word.text rows) (hlast : last ∈ blank)
    (h : r.At .selector (gap ++ (text ++ (last ++ '\x7b' :: rest))) room) (hgap : IsGap gap)
    (hroom : (text ++ (last ++ '\x7b' :: rest)).length ≤ room)
    (hQ : ∀ r', r'.At .selector rest room → Q (selectorOf rows) r') : Runs selector r Q := by
  obtain ⟨text, hfirst, tail, htail, rfl⟩ := Language.mem_mul.1 htext
  rw [List.append_assoc] at h hroom
  refine runs_bind (runs_here (runs_bind (runs_room (runs_bind ?_))))
  rw [h.room]
  refine runs_selectorFrom_rows hfirst htail hlast h hgap hroom ?_
  intro s r' hs hr'
  have hselector : s = selectorOf rows := by
    obtain ⟨alts⟩ := s
    exact congrArg Selector.mk hs
  rw [hselector, if_neg (by simp [selectorOf, Selector.isEmpty, Row.toList])]
  exact runs_pure (hQ r' hr')

end Steps

end Nesting

end Stylesheet
