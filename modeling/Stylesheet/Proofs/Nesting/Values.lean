import Stylesheet.Proofs.Nesting.Tree
import Stylesheet.Proofs.Token.Reading
import Stylesheet.Value.Reader

/-!
# Reading plain values

A comma list of space lists of identifiers, laid out with any blanks, is read as that list.

* `valueOf`: the value of some rows of identifiers.
* `runs_valueList`: what reading a laid out value gives.
-/

namespace Stylesheet

namespace Nesting

open Reading

/-- The value of a space list. -/
def Row.value (row : Row Ident) : Value := .ofComponents (row.toList.map fun i => .ofIdent i.text)

/-- The value of a comma list of space lists. -/
def valueOf (rows : Row (Row Ident)) : Value := .ofGroups (rows.toList.map Row.value)

/-- A list, or its only item. -/
def listOf (separator : Separator) : List Value → Value
  | [v] => v
  | items => .list items separator

theorem Row.value_eq_listOf (row : Row Ident) :
    row.value = listOf .space (row.toList.map fun i => .ofIdent i.text) := rfl

theorem valueOf_eq_listOf (rows : Row (Row Ident)) :
    valueOf rows = listOf .comma (rows.toList.map Row.value) := rfl

/-! ## One identifier -/

/-- The kinds of the tokens that can follow an identifier in a value. -/
def rowKinds : List TokenKind := [.ident, .comma, .semicolon]

/-- A text in a value that goes on with an identifier or with what ends a row. -/
def GoesOn (text : List Char) : Prop :=
  ∃ gap kind word rest, text = gap ++ (word ++ rest) ∧ IsGap gap ∧ Cut .value kind word rest ∧
    kind ∈ rowKinds

/-- A text that starts with what ends a row. -/
def EndsRow (text : List Char) : Prop := ∃ c rest, text = c :: rest ∧ (c = ',' ∨ c = ';')

theorem EndsRow.cut {text : List Char} (h : EndsRow text) :
    ∃ kind word rest, text = word ++ rest ∧ Cut .value kind word rest ∧ kind.endsList = true ∧
      kind ∈ rowKinds := by
  obtain ⟨c, rest, rfl, rfl | rfl⟩ := h
  · have hcut : Cut .value .comma [','] rest :=
      cut_punctuation (by decide) (by decide) (by rfl)
    exact ⟨.comma, [','], rest, rfl, hcut, rfl, by decide⟩
  · have hcut : Cut .value .semicolon [';'] rest :=
      cut_punctuation (by decide) (by decide) (by rfl)
    exact ⟨.semicolon, [';'], rest, rfl, hcut, rfl, by decide⟩

theorem endsName_of_mem_prod {more : List Ident} {tail rest : List Char}
    (htail : tail ∈ (more.map fun i => blank * exactly i.text).prod) (hrest : EndsRow rest) :
    EndsName (tail ++ rest) := by
  obtain ⟨d, rest, rfl, hd⟩ := hrest
  intro c hc
  rcases head?_of_mem_prod htail _ c hc with rfl | rfl | ⟨-, h⟩
  · decide
  · decide
  · cases h
    rcases hd with rfl | rfl <;> decide

theorem goesOn_of_mem_prod {more : List Ident} {tail rest : List Char}
    (htail : tail ∈ (more.map fun i => blank * exactly i.text).prod) (hrest : EndsRow rest) :
    GoesOn (tail ++ rest) := by
  cases more with
  | nil =>
    rw [List.map_nil, List.prod_nil, Language.mem_one] at htail
    obtain ⟨kind, word, after, rfl, hcut, -, hkind⟩ := hrest.cut
    subst htail
    exact ⟨[], kind, word, after, rfl, isGap_nil, hcut, hkind⟩
  | cons i more =>
    obtain ⟨gap, hgap, _, rfl, tail, hmore, rfl⟩ := exists_of_mem_prod_cons htail
    refine ⟨gap, .ident, i.text.toList, tail ++ rest, by simp, hgap.2, ?_, by decide⟩
    exact cut_ident (by decide) i.isIdent (endsName_of_mem_prod hmore hrest)

section Steps

variable {r : Reader} {room n : Nat} {gap rest : List Char}

theorem runs_callFollows (h : r.Stands .value rest room) (hrest : GoesOn rest)
    {Q : Bool → Reader → Prop} (hQ : ∀ r', r'.Stands .value rest room → Q false r') :
    Runs callFollows r Q := by
  obtain ⟨gap, kind, word, after, rfl, hgap, hcut, hkind⟩ := hrest
  refine runs_bind (runs_peek h hgap hcut fun t r' ht hr' => runs_pure ?_)
  have hparen : t.kind ≠ .leftParen := by
    rw [ht.kind]
    rintro rfl
    exact absurd hkind (by decide)
  rw [Option.any_some, decide_eq_false hparen]
  exact hQ r' hr'

theorem runs_operatorsIn (h : r.Stands .value rest room) (hrest : GoesOn rest) {left : Value}
    {Q : Value → Reader → Prop} (hQ : ∀ r', r'.Stands .value rest room → Q left r') :
    Runs (operatorsIn {} 0 left (n + 1)) r Q := by
  obtain ⟨gap, kind, word, after, rfl, hgap, hcut, hkind⟩ := hrest
  have hoperator : Grammar.operator? {} kind = none := by
    simp only [rowKinds, List.mem_cons, List.not_mem_nil, or_false] at hkind
    rcases hkind with rfl | rfl | rfl <;> rfl
  rw [operatorsIn]
  refine runs_bind (runs_peekKind h hgap hcut fun r' hr' => ?_)
  rw [Option.bind_some, hoperator]
  exact runs_pure (hQ r' hr')

theorem runs_binaryIn {word : Ident} (h : r.Stands .value (gap ++ (word.text.toList ++ rest)) room)
    (hgap : IsGap gap) (hends : EndsName rest) (hrest : GoesOn rest) {Q : Value → Reader → Prop}
    (hQ : ∀ r', r'.Stands .value rest room → Q (.ofIdent word.text) r') :
    Runs (binaryIn {} 0 (n + 2)) r Q := by
  have hcut : Cut .value .ident word.text.toList rest := cut_ident (by decide) word.isIdent hends
  rw [binaryIn, primaryIn]
  refine runs_bind (runs_bind (runs_require h hgap hcut (by decide) _ fun t r' ht hr' => ?_))
  rw [ht.kind, ht.text, String.ofList_toList]
  refine runs_bind (runs_callFollows hr'.stands hrest fun r'' hr'' => runs_pure ?_)
  exact runs_operatorsIn hr'' hrest hQ

/-! ## Rows -/

-- A step is taken for each identifier, and two more for what is in it; the characters left bound the
-- steps that are needed.
theorem runs_spaceListIn_more {more : List Ident} {tail : List Char} {components : List Value}
    (htail : tail ∈ (more.map fun i => blank * exactly i.text).prod)
    (h : r.Stands .value (tail ++ rest) room) (hrest : EndsRow rest)
    (hn : (tail ++ rest).length + 2 ≤ n) (hne : components ≠ []) {Q : Value → Reader → Prop}
    (hQ : ∀ r', r'.Stands .value rest room →
      Q (.ofComponents (components.reverse ++ more.map fun i => .ofIdent i.text)) r') :
    Runs (spaceListIn {} components n) r Q := by
  induction more generalizing r n tail components with
  | nil =>
    rw [List.map_nil, List.prod_nil, Language.mem_one] at htail
    obtain ⟨kind, word, after, rfl, hcut, hends, -⟩ := hrest.cut
    subst htail
    obtain ⟨n, rfl⟩ : ∃ m, n = m + 1 := ⟨n - 1, by omega⟩
    rw [spaceListIn]
    refine runs_bind (runs_peek h isGap_nil hcut fun t r' ht hr' => ?_)
    dsimp only
    rw [ht.kind, if_pos hends]
    refine runs_pure ?_
    have hQ := hQ r' hr'
    rw [List.map_nil, List.append_nil] at hQ
    exact hQ
  | cons i more ih =>
    obtain ⟨gap, hgap, _, rfl, tail, hmore, rfl⟩ := exists_of_mem_prod_cons htail
    have hlength := length_ne_zero_of_mem_blank hgap
    rw [List.append_assoc, List.append_assoc] at h hn
    rw [List.length_append, List.length_append] at hn
    obtain ⟨n, rfl⟩ : ∃ m, n = m + 3 := ⟨n - 3, by omega⟩
    have hends := endsName_of_mem_prod hmore hrest
    rw [spaceListIn]
    refine runs_bind (runs_peek h hgap.2 (cut_ident (by decide) i.isIdent hends)
      fun t r' ht hr' => ?_)
    dsimp only
    rw [ht.kind, if_neg (by decide)]
    refine runs_bind (runs_binaryIn hr' hgap.2 hends (goesOn_of_mem_prod hmore hrest) ?_)
    intro r'' hr''
    obtain ⟨last, before, rfl⟩ := List.exists_cons_of_ne_nil hne
    dsimp only
    rw [if_pos (ht.spaceBefore hgap.1)]
    refine ih hmore hr'' (by omega) (by simp) fun r''' hr''' => ?_
    rw [List.reverse_cons, List.append_assoc]
    exact hQ r''' hr'''

theorem runs_spaceListIn {row : Row Ident} {text : List Char}
    (htext : text ∈ row.layouts blank fun i => exactly i.text)
    (h : r.Stands .value (gap ++ (text ++ rest)) room) (hgap : IsGap gap) (hrest : EndsRow rest)
    (hn : (text ++ rest).length + 2 ≤ n) {Q : Value → Reader → Prop}
    (hQ : ∀ r', r'.Stands .value rest room → Q row.value r') :
    Runs (spaceListIn {} [] n) r Q := by
  obtain ⟨_, rfl, tail, htail, rfl⟩ := Language.mem_mul.1 htext
  rw [List.append_assoc] at h hn
  have hfirst := row.first.length_ne_zero
  rw [List.length_append] at hn
  obtain ⟨n, rfl⟩ : ∃ m, n = m + 3 := ⟨n - 3, by omega⟩
  have hends := endsName_of_mem_prod htail hrest
  rw [spaceListIn]
  refine runs_bind (runs_peek h hgap (cut_ident (by decide) row.first.isIdent hends)
    fun t r' ht hr' => ?_)
  dsimp only
  rw [ht.kind, if_neg (by decide)]
  refine runs_bind (runs_binaryIn hr' hgap hends (goesOn_of_mem_prod htail hrest) ?_)
  intro r'' hr''
  exact runs_spaceListIn_more htail hr'' hrest (by omega) (by simp) hQ

theorem endsRow_of_mem_prod {more : List (Row Ident)} {tail : List Char}
    (htail : tail ∈ (more.map fun row =>
      exactly "," * blank * row.layouts blank fun i => exactly i.text).prod) (rest : List Char) :
    EndsRow (tail ++ ';' :: rest) := by
  cases more with
  | nil =>
    rw [List.map_nil, List.prod_nil, Language.mem_one] at htail
    subst htail
    exact ⟨';', rest, rfl, .inr rfl⟩
  | cons row more =>
    obtain ⟨_, hcomma, text, -, tail, -, rfl⟩ := exists_of_mem_prod_cons htail
    obtain ⟨gap, -, rfl⟩ := exists_of_mem_comma hcomma
    exact ⟨',', _, rfl, .inl rfl⟩

-- The induction is on the rows after the first one; those before are in `groups`.
theorem runs_groupsIn {more : List (Row Ident)} {tail : List Char} {groups : List Value}
    (htail : tail ∈ (more.map fun row =>
      exactly "," * blank * row.layouts blank fun i => exactly i.text).prod)
    (h : r.Stands .value (tail ++ ';' :: rest) room) (hn : (tail ++ ';' :: rest).length + 2 ≤ n)
    {Q : Value → Reader → Prop} (hQ : ∀ r', r'.Stands .value (';' :: rest) room →
      Q (.ofGroups (groups.reverse ++ more.map Row.value)) r') :
    Runs (groupsIn {} groups n) r Q := by
  induction more generalizing r n tail groups with
  | nil =>
    rw [List.map_nil, List.prod_nil, Language.mem_one] at htail
    subst htail
    obtain ⟨n, rfl⟩ : ∃ m, n = m + 1 := ⟨n - 1, by omega⟩
    have hcut : Cut .value .semicolon [';'] rest :=
      cut_punctuation (by decide) (by decide) (by rfl)
    rw [groupsIn]
    refine runs_bind (runs_peekKind h isGap_nil hcut fun r' hr' => ?_)
    rw [if_neg (by decide)]
    refine runs_pure ?_
    have hQ := hQ r' hr'
    rw [List.map_nil, List.append_nil] at hQ
    exact hQ
  | cons row more ih =>
    obtain ⟨_, hcomma, text, htext, tail, hmore, rfl⟩ := exists_of_mem_prod_cons htail
    obtain ⟨gap, hgap, rfl⟩ := exists_of_mem_comma hcomma
    have hsplit : ',' :: gap ++ (text ++ tail) ++ ';' :: rest =
        [] ++ ([','] ++ (gap ++ (text ++ (tail ++ ';' :: rest)))) := by
      simp
    have hlength : ([] ++ ([','] ++ (gap ++ (text ++ (tail ++ ';' :: rest))))).length =
        1 + gap.length + text.length + (tail ++ ';' :: rest).length := by
      simp only [List.length_append, List.length_nil, List.length_cons]
      omega
    rw [hsplit] at h hn
    rw [hlength] at hn
    obtain ⟨n, rfl⟩ : ∃ m, n = m + 1 := ⟨n - 1, by omega⟩
    have hcut : Cut .value .comma [','] (gap ++ (text ++ (tail ++ ';' :: rest))) :=
      cut_punctuation (by decide) (by decide) (by rfl)
    rw [groupsIn]
    refine runs_bind (runs_peekKind h isGap_nil hcut fun r' hr' => ?_)
    rw [if_pos rfl]
    refine runs_bind (runs_skip hr' isGap_nil hcut (by decide) fun r'' hr'' => ?_)
    have hends := endsRow_of_mem_prod hmore rest
    refine runs_bind (runs_spaceListIn htext hr''.stands hgap.2 hends ?_ fun r''' hr''' => ?_)
    · rw [List.length_append]
      omega
    · refine ih hmore hr''' (by omega) fun r'''' hr'''' => ?_
      rw [List.reverse_cons, List.append_assoc]
      exact hQ r'''' hr''''

/-- A laid out value, read up to the semicolon after it. -/
theorem runs_valueList {rows : Row (Row Ident)} {text : List Char}
    (htext : text ∈ rowsLayouts Ident.text rows)
    (h : r.At .value (gap ++ (text ++ ';' :: rest)) room) (hgap : IsGap gap)
    (hroom : (text ++ ';' :: rest).length + 3 ≤ room) {Q : Value → Reader → Prop}
    (hQ : ∀ r', r'.Stands .value (';' :: rest) room → Q (valueOf rows) r') :
    Runs valueList r Q := by
  obtain ⟨text, hfirst, tail, htail, rfl⟩ := Language.mem_mul.1 htext
  rw [List.append_assoc] at h hroom
  refine runs_bind (runs_room ?_)
  obtain ⟨room, rfl⟩ : ∃ m, room = m + 1 := ⟨room - 1, by omega⟩
  rw [h.room, valueListIn]
  refine runs_bind (runs_spaceListIn hfirst h.stands hgap (endsRow_of_mem_prod htail rest)
    (by omega) fun r' hr' => ?_)
  rw [List.length_append] at hroom
  exact runs_groupsIn htail hr' (by omega) hQ

end Steps

end Nesting

end Stylesheet
