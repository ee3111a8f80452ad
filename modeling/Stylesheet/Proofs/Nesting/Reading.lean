import Stylesheet.Proofs.Nesting.Selectors
import Stylesheet.Proofs.Nesting.Values

/-!
# Reading plain rules

A tree of plain rules that is laid out with any blanks is read as the nodes of that tree. Whether an
item is a declaration or a rule is seen by looking ahead; then it is read again from its start.

* `Body.Nodes`: the nodes of a body, wherever its declarations stand.
* `runs_itemsFrom`: what reading the items of a block gives.
* `exists_read`: what reading a whole sheet gives.
-/

namespace Stylesheet

namespace Nesting

open Reading

/-- The nodes of a body; the positions of declarations can be any. -/
inductive Body.Nodes : Nat → Body → List Node → Prop
  | nil {depth : Nat} : Nodes depth .nil []
  | declaration {depth : Nat} {name : Ident} {value : Row (Row Ident)} {position : Position}
      {rest : Body} {nodes : List Node} (hrest : Nodes depth rest nodes) :
      Nodes depth (.declaration name value rest)
        (.declaration ⟨name.text, valueOf value, position⟩ :: nodes)
  | rule {depth : Nat} {selector : Row (Row Word)} {inner rest : Body} {body nodes : List Node}
      (hinner : Nodes (depth + 1) inner body) (hrest : Nodes depth rest nodes) :
      Nodes depth (.rule selector inner rest)
        (.block (.style (selectorOf selector) (depth + 1)) body :: nodes)

/-! ## Looking ahead -/

/-- The texts made of characters with a property. -/
def textsOver (P : Char → Prop) : Language Char := {text | ∀ c ∈ text, P c}

theorem textsOver_mul {P : Char → Prop} {l m : Language Char} (hl : l ≤ textsOver P)
    (hm : m ≤ textsOver P) : l * m ≤ textsOver P := by
  intro text htext
  obtain ⟨a, ha, b, hb, rfl⟩ := Language.mem_mul.1 htext
  intro c hc
  exact (List.mem_append.1 hc).elim (hl ha c) (hm hb c)

theorem textsOver_prod {P : Char → Prop} {ls : List (Language Char)}
    (h : ∀ l ∈ ls, l ≤ textsOver P) : ls.prod ≤ textsOver P := by
  induction ls with
  | nil =>
    rw [List.prod_nil]
    rintro _ rfl c hc
    cases hc
  | cons l ls ih =>
    rw [List.prod_cons]
    exact textsOver_mul (h l List.mem_cons_self) (ih fun m hm => h m (List.mem_cons_of_mem l hm))

theorem Row.layouts_le {α : Type} {P : Char → Prop} {between : Language Char}
    {layouts : α → Language Char} (hbetween : between ≤ textsOver P)
    (hlayouts : ∀ a, layouts a ≤ textsOver P) (row : Row α) :
    row.layouts between layouts ≤ textsOver P := by
  refine textsOver_mul (hlayouts row.first) (textsOver_prod fun l hl => ?_)
  obtain ⟨a, -, rfl⟩ := List.mem_map.1 hl
  exact textsOver_mul hbetween (hlayouts a)

theorem rowsLayouts_le {α : Type} {P : Char → Prop} {text : α → String}
    (htext : ∀ a, ∀ c ∈ (text a).toList, P c) (hP : P ' ' ∧ P '\n' ∧ P ',') (rows : Row (Row α)) :
    rowsLayouts text rows ≤ textsOver P := by
  have hblank : blank ≤ textsOver P := by
    intro gap hgap c hc
    rcases hgap.2 c hc with rfl | rfl
    · exact hP.1
    · exact hP.2.1
  have hcomma : exactly "," ≤ textsOver P := by
    rintro _ rfl c hc
    rw [List.mem_singleton.1 hc]
    exact hP.2.2
  have hitem : ∀ a, exactly (text a) ≤ textsOver P := by
    rintro a _ rfl
    exact htext a
  exact Row.layouts_le (textsOver_mul hcomma hblank) (Row.layouts_le hblank hitem) rows

theorem isQuiet_of_isPlain {c : Char} (hc : isPlain c = true) : isQuiet c = true :=
  isPlain_induction (P := fun c => isQuiet c = true) hc (by decide)

theorem isQuiet_of_mem_word (w : Word) {c : Char} (hc : c ∈ w.text.toList) :
    isQuiet c = true ∨ c = '#' := by
  rcases isWordText_cases w.isWord with ⟨sign, d, ds, hw, hsign, hds⟩ | ⟨d, ds, hw, hd, hds⟩
  · rw [hw] at hc
    rcases List.mem_cons.1 hc with rfl | hc
    · rcases hsign with rfl | rfl
      · exact .inl (by decide)
      · exact .inr rfl
    · exact .inl (isQuiet_of_isPlain (hds c hc))
  · rw [hw] at hc
    refine .inl (isQuiet_of_isPlain ?_)
    rcases List.mem_cons.1 hc with rfl | hc
    · exact isPlain_of_isInitial (isInitial_of_isLetter hd)
    · exact hds c hc

theorem isCalm_rule {selector : Row (Row Word)} {text last : List Char}
    (htext : text ∈ rowsLayouts Word.text selector) (hlast : last ∈ blank) :
    IsCalm (text ++ last) := by
  have hquiet := rowsLayouts_le (fun w c hc => isQuiet_of_mem_word w hc) (by decide) selector htext
  constructor
  · intro c hc
    rcases List.mem_append.1 hc with hc | hc
    · exact hquiet c hc
    · rcases hlast.2 c hc with rfl | rfl <;> exact .inl (by decide)
  · rw [List.getLast?_append_of_ne_nil _ hlast.1]
    intro h
    have hmem := hlast.2 '#' (List.mem_of_mem_getLast? h)
    simp at hmem

theorem isCalm_declaration {name : Ident} {value : Row (Row Ident)} {gap text : List Char}
    (hgap : gap ∈ blank) (htext : text ∈ rowsLayouts Ident.text value) :
    IsCalm (name.text.toList ++ (':' :: (gap ++ text))) := by
  have hident : ∀ (i : Ident), ∀ c ∈ i.text.toList, isQuiet c = true :=
    fun i c hc => isQuiet_of_isPlain (isPlain_of_isIdentText i.isIdent hc)
  have hquiet := rowsLayouts_le hident (by decide) value htext
  have hall : ∀ c ∈ name.text.toList ++ (':' :: (gap ++ text)), isQuiet c = true := by
    intro c hc
    rcases List.mem_append.1 hc with hc | hc
    · exact hident name c hc
    · rcases List.mem_cons.1 hc with rfl | hc
      · decide
      · rcases List.mem_append.1 hc with hc | hc
        · rcases hgap.2 c hc with rfl | rfl <;> decide
        · exact hquiet c hc
  refine ⟨fun c hc => .inl (hall c hc), fun h => ?_⟩
  exact absurd (hall '#' (List.mem_of_mem_getLast? h)) (by decide)

/-! ## Declarations -/

section Items

variable {r : Reader} {room n depth : Nat} {gap rest : List Char}

theorem runs_propertyName {name : Ident}
    (h : r.Stands .block (gap ++ (name.text.toList ++ ':' :: rest)) room) (hgap : IsGap gap)
    {Q : String → Reader → Prop} (hQ : ∀ r', r'.At .block rest room → Q name.text r') :
    Runs (propertyName "" (n + 2)) r Q := by
  have hends : EndsName (':' :: rest) := by
    intro c hc
    cases hc
    decide
  have hcolon : Cut .block .colon [':'] rest :=
    cut_punctuation (by decide) (by decide) (by rfl)
  rw [propertyName]
  refine runs_bind (runs_require h hgap (cut_ident (by decide) name.isIdent hends) (by decide) _
    fun t r' ht hr' => ?_)
  rw [ht.kind, ht.text, String.ofList_toList, String.empty_append]
  dsimp only
  have hat : r'.At .block ([] ++ ([':'] ++ rest)) room := hr'
  rw [propertyName]
  refine runs_bind (runs_require hat.stands isGap_nil hcolon (by decide) _ fun t' r'' ht' hr'' => ?_)
  rw [ht'.kind]
  dsimp only
  rw [if_neg (by simpa using name.length_ne_zero)]
  exact runs_pure (hQ r'' hr'')

theorem ofIdent_ne_list (text : String) (items : List Value) (separator : Separator) :
    Value.ofIdent text ≠ .list items separator := by
  unfold Value.ofIdent
  split
  · simp
  · split <;> simp

theorem ne_nil_of_row_value {row : Row Ident} {items : List Value} {separator : Separator}
    (h : row.value = .list items separator) : items ≠ [] := by
  obtain ⟨first, more⟩ := row
  cases more with
  | nil => exact absurd h (ofIdent_ne_list _ _ _)
  | cons i more =>
    cases h
    simp

/-- A value holds something. -/
theorem ne_nil_of_valueOf {rows : Row (Row Ident)} {items : List Value} {separator : Separator}
    (h : valueOf rows = .list items separator) : items ≠ [] := by
  obtain ⟨first, more⟩ := rows
  cases more with
  | nil => exact ne_nil_of_row_value h
  | cons row more =>
    cases h
    simp

theorem runs_endStatement (h : r.Stands .value (';' :: rest) room) {Q : Unit → Reader → Prop}
    (reading : Construct) (hQ : ∀ r', r'.At .block rest room → Q () r') :
    Runs (endStatement reading) r Q := by
  have hcut : Cut .value .semicolon [';'] rest :=
    cut_punctuation (by decide) (by decide) (by rfl)
  have hstands : r.Stands .value ([] ++ ([';'] ++ rest)) room := h
  refine runs_bind (runs_peek hstands isGap_nil hcut fun t r' ht hr' => ?_)
  dsimp only
  rw [if_pos ht.kind]
  refine runs_bind (runs_skip hr' isGap_nil hcut (by decide) fun r'' hr'' => ?_)
  exact runs_setMode_at hr'' .block hQ

theorem runs_declaration {name : Ident} {value : Row (Row Ident)} {gap' text : List Char}
    (h : r.Stands .block (gap ++ (name.text.toList ++ ':' :: (gap' ++ (text ++ ';' :: rest)))) room)
    (hgap : IsGap gap) (hgap' : IsGap gap') (htext : text ∈ rowsLayouts Ident.text value)
    (hroom : (text ++ ';' :: rest).length + 3 ≤ room) (position : Position)
    {Q : Node → Reader → Prop} (hQ : ∀ r', r'.At .block rest room →
      Q (.declaration ⟨name.text, valueOf value, position⟩) r') :
    Runs (declaration position) r Q := by
  refine runs_bind (runs_room (runs_bind ?_))
  obtain ⟨m, rfl⟩ : ∃ m, room = m + 2 := ⟨room - 2, by omega⟩
  rw [h.room]
  refine runs_propertyName h hgap fun r₁ hr₁ => ?_
  refine runs_bind (runs_setMode_at hr₁ .value fun r₂ hr₂ => ?_)
  refine runs_bind (runs_valueList htext hr₂ hgap' hroom fun r₃ hr₃ => ?_)
  split
  · rename_i h
    exact absurd rfl (ne_nil_of_valueOf h)
  · exact runs_bind (runs_endStatement hr₃ _ fun r₄ hr₄ => runs_pure (hQ r₄ hr₄))

/-! ## Rules -/

theorem endsWord_of_mem_rows {more : List (Row Word)} {tail rest : List Char}
    (htail : tail ∈ (more.map fun row =>
      exactly "," * blank * row.layouts blank fun w => exactly w.text).prod)
    (hrest : EndsWord rest) : EndsWord (tail ++ rest) := by
  cases more with
  | nil =>
    rw [List.map_nil, List.prod_nil, Language.mem_one] at htail
    subst htail
    exact hrest
  | cons row more =>
    obtain ⟨_, hcomma, text, -, tail, -, rfl⟩ := exists_of_mem_prod_cons htail
    obtain ⟨gap, -, rfl⟩ := exists_of_mem_comma hcomma
    intro c hc
    cases hc
    exact .inr (.inr rfl)

/-- The token that a rule starts with where it is read in a block. -/
theorem exists_cut_rule {selector : Row (Row Word)} {text rest : List Char}
    (htext : text ∈ rowsLayouts Word.text selector) (hrest : EndsWord rest) :
    ∃ kind head tail, text ++ rest = head ++ tail ∧ Cut .block kind head tail ∧
      kind ∈ wordKinds := by
  obtain ⟨_, hfirst, tail, htail, rfl⟩ := Language.mem_mul.1 htext
  obtain ⟨_, rfl, tail', htail', rfl⟩ := Language.mem_mul.1 hfirst
  rw [List.append_assoc, List.append_assoc]
  exact exists_cut_word selector.first.first.isWord
    (endsWord_of_mem_prod htail' (endsWord_of_mem_rows htail hrest))

theorem runs_styleRule {selector : Row (Row Word)} {text last inner : List Char}
    (htext : text ∈ rowsLayouts Word.text selector) (hlast : last ∈ blank)
    (h : r.Stands .block (gap ++ (text ++ (last ++ '\x7b' :: inner))) room) (hgap : IsGap gap)
    (hroom : (text ++ (last ++ '\x7b' :: inner)).length ≤ room)
    {body : Position → Reading (List Node)} {P : List Node → Reader → Prop}
    (hbody : ∀ start r', r'.At .selector inner room → Runs (body start) r' P) (level : Nat)
    {Q : Node → Reader → Prop}
    (hQ : ∀ nodes r', P nodes r' → Q (.block (.style (selectorOf selector) level) nodes) r') :
    Runs (styleRule body level) r Q := by
  obtain ⟨kind, head, tail, hsplit, hcut, -⟩ :=
    exists_cut_rule htext (endsWord_of_mem_blank hlast ('\x7b' :: inner))
  rw [hsplit] at h
  refine runs_bind (runs_setMode h hgap hcut .selector fun gap' r₁ hgap' hr₁ => ?_)
  rw [← hsplit] at hr₁
  refine runs_bind (runs_here ?_)
  refine runs_bind (runs_selector htext hlast hr₁ hgap' hroom fun r₂ hr₂ => ?_)
  obtain ⟨nodes, r₃, hrun, hnodes⟩ := hbody r₁.lexer.position r₂ hr₂
  exact runs_bind ⟨nodes, r₃, hrun, runs_pure (hQ nodes r₃ hnodes)⟩

/-! ## Items -/

variable {opening : Option Position} {found : List Node}

theorem runs_itemsFrom_end (h : r.At .block (gap ++ '\x7d' :: rest) room) (hgap : IsGap gap)
    (start : Position) {Q : List Node → Reader → Prop}
    (hQ : ∀ r', r'.At .block rest room → Q found.reverse r') :
    Runs (itemsFrom depth (some start) found (n + 1)) r Q := by
  have hcut : Cut .block .rightBrace ['\x7d'] rest :=
    cut_punctuation (by decide) (by decide) (by rfl)
  have hat : r.At .block (gap ++ (['\x7d'] ++ rest)) room := h
  rw [itemsFrom]
  refine runs_bind (runs_peek hat.stands hgap hcut fun t r' ht hr' => ?_)
  dsimp only
  rw [ht.kind]
  dsimp only
  exact runs_bind (runs_skip hr' hgap hcut (by decide) fun r'' hr'' => runs_pure (hQ r'' hr''))

theorem runs_itemsFrom_item {kind : TokenKind} {head tail : List Char}
    (h : r.At .block (gap ++ (head ++ tail)) room) (hgap : IsGap gap)
    (hcut : Cut .block kind head tail) (hkind : kind ∈ wordKinds) {Q : List Node → Reader → Prop}
    (hitem : ∀ t r', t.IsCut kind gap head tail → r'.Stands .block (gap ++ (head ++ tail)) room →
      Runs (itemFrom depth opening.isNone t n) r' fun node r'' =>
        Runs (itemsFrom depth opening (node :: found) n) r'' Q) :
    Runs (itemsFrom depth opening found (n + 1)) r Q := by
  rw [itemsFrom]
  refine runs_bind (runs_peek h.stands hgap hcut fun t r' ht hr' => ?_)
  have hrun := runs_bind (hitem t r' ht hr')
  cases opening with
  | none =>
    dsimp only
    simp only [wordKinds, List.mem_cons, List.not_mem_nil, or_false] at hkind
    rcases hkind with rfl | rfl | rfl | rfl <;>
    · rw [ht.kind]
      exact hrun
  | some start =>
    dsimp only
    simp only [wordKinds, List.mem_cons, List.not_mem_nil, or_false] at hkind
    rcases hkind with rfl | rfl | rfl | rfl <;>
    · rw [ht.kind]
      exact hrun

theorem runs_itemFrom_declaration {t : Token} {name : Ident} {value : Row (Row Ident)}
    {gap' text : List Char} (hgap' : gap' ∈ blank) (htext : text ∈ rowsLayouts Ident.text value)
    (hkind : t.kind = .ident)
    (hsource : t.source = name.text.toList ++ ':' :: (gap' ++ (text ++ ';' :: rest)))
    (h : r.Stands .block (gap ++ (name.text.toList ++ ':' :: (gap' ++ (text ++ ';' :: rest)))) room)
    (hgap : IsGap gap) (hroom : (text ++ ';' :: rest).length + 3 ≤ room)
    {Q : Node → Reader → Prop} (hQ : ∀ r', r'.At .block rest room →
      Q (.declaration ⟨name.text, valueOf value, t.position⟩) r') :
    Runs (itemFrom depth false t (n + 1)) r Q := by
  have hsplit : t.source = (name.text.toList ++ ':' :: (gap' ++ text)) ++ ';' :: rest := by
    rw [hsource]
    simp
  rw [itemFrom, hkind]
  dsimp only
  rw [hsplit, itemEnd_append (isCalm_declaration hgap' htext) (by decide)]
  exact runs_declaration h hgap hgap'.2 htext hroom t.position hQ

theorem runs_itemFrom_rule {top : Bool} {t : Token} {selector : Row (Row Word)}
    {text last inner : List Char} (htext : text ∈ rowsLayouts Word.text selector)
    (hlast : last ∈ blank) (hkind : t.kind ∈ wordKinds)
    (hsource : t.source = text ++ (last ++ '\x7b' :: inner))
    (h : r.Stands .block (gap ++ (text ++ (last ++ '\x7b' :: inner))) room) (hgap : IsGap gap)
    (hroom : (text ++ (last ++ '\x7b' :: inner)).length ≤ room)
    {P : List Node → Reader → Prop}
    (hbody : ∀ start r', r'.At .block inner room →
      Runs (itemsFrom (depth + 1) (some start) [] n) r' P)
    {Q : Node → Reader → Prop} (hQ : ∀ nodes r', P nodes r' →
      Q (.block (.style (selectorOf selector) (depth + 1)) nodes) r') :
    Runs (itemFrom depth top t (n + 1)) r Q := by
  have hend : itemEnd t.source = some '\x7b' := by
    rw [hsource, ← List.append_assoc]
    exact itemEnd_append (isCalm_rule htext hlast) (by decide) inner
  have hblock : ∀ start r', r'.At .selector inner room → Runs (do
      setMode .block
      itemsFrom (depth + 1) (some start) [] n) r' P :=
    fun start r' hr' => runs_bind (runs_setMode_at hr' .block fun r'' hr'' => hbody start r'' hr'')
  have hrule := runs_styleRule htext hlast h hgap hroom hblock (depth + 1) hQ
  rw [itemFrom]
  simp only [wordKinds, List.mem_cons, List.not_mem_nil, or_false] at hkind
  rcases hkind with hkind | hkind | hkind | hkind <;>
  · rw [hkind]
    dsimp only
    rw [hend]
    exact hrule

/-- A declaration in a block, with the blanks after it left to the items that follow. -/
theorem runs_itemsFrom_declaration {name : Ident} {value : Row (Row Ident)} {text : List Char}
    (htext : text ∈ declarationLayouts name value) (h : r.At .block (gap ++ (text ++ rest)) room)
    (hgap : IsGap gap) (hroom : (text ++ rest).length + 3 ≤ room) (start : Position)
    {Q : List Node → Reader → Prop}
    (hrest : ∀ position last r', IsGap last → r'.At .block (last ++ rest) room →
      Runs (itemsFrom depth (some start)
        (.declaration ⟨name.text, valueOf value, position⟩ :: found) (n + 1)) r' Q) :
    Runs (itemsFrom depth (some start) found (n + 2)) r Q := by
  obtain ⟨gap', hgap', items, hitems, last, hlast, rfl⟩ := exists_of_mem_declarationLayouts htext
  have hsplit : name.text.toList ++ ':' :: (gap' ++ (items ++ ';' :: last)) ++ rest =
      name.text.toList ++ ':' :: (gap' ++ (items ++ ';' :: (last ++ rest))) := by
    simp
  rw [hsplit] at h hroom
  simp only [List.length_append, List.length_cons] at hroom
  have hcut : Cut .block .ident name.text.toList
      (':' :: (gap' ++ (items ++ ';' :: (last ++ rest)))) := by
    refine cut_ident (by decide) name.isIdent fun c hc => ?_
    cases hc
    decide
  refine runs_itemsFrom_item h hgap hcut (by decide) fun t r' ht hr' => ?_
  refine runs_itemFrom_declaration hgap' hitems ht.kind ht.source hr' hgap ?_ fun r'' hr'' => ?_
  · simp only [List.length_append, List.length_cons]
    omega
  · exact hrest t.position last r'' hlast.2 hr''

/-- A rule in a block or in a sheet, given what its own items are read as. -/
theorem runs_itemsFrom_rule {selector : Row (Row Word)} {inner : Language Char} {text : List Char}
    (htext : text ∈ ruleLayouts selector inner) (h : r.At .block (gap ++ (text ++ rest)) room)
    (hgap : IsGap gap) (hroom : (text ++ rest).length + 3 ≤ room) {P : List Node → Prop}
    (hinner : ∀ items ∈ inner, ∀ gap' start r', IsGap gap' →
      (items ++ '\x7d' :: rest).length + 2 ≤ (text ++ rest).length →
      r'.At .block (gap' ++ (items ++ '\x7d' :: rest)) room →
      Runs (itemsFrom (depth + 1) (some start) [] n) r' fun nodes r'' =>
        P nodes ∧ r''.At .block rest room)
    {Q : List Node → Reader → Prop}
    (hrest : ∀ body r', P body → r'.At .block rest room →
      Runs (itemsFrom depth opening
        (.block (.style (selectorOf selector) (depth + 1)) body :: found) (n + 1)) r' Q) :
    Runs (itemsFrom depth opening found (n + 2)) r Q := by
  obtain ⟨head, hhead, last, hlast, gap', hgap', items, hitems, rfl⟩ :=
    exists_of_mem_ruleLayouts htext
  have hlength := length_ne_zero_of_mem_blank hlast
  have hsplit : head ++ (last ++ '\x7b' :: (gap' ++ (items ++ ['\x7d']))) ++ rest =
      head ++ (last ++ '\x7b' :: (gap' ++ (items ++ '\x7d' :: rest))) := by
    simp
  rw [hsplit] at h hroom hinner
  obtain ⟨kind, word, tail, hcutting, hcut, hkind⟩ := exists_cut_rule hhead
    (endsWord_of_mem_blank hlast ('\x7b' :: (gap' ++ (items ++ '\x7d' :: rest))))
  rw [hcutting] at h
  refine runs_itemsFrom_item h hgap hcut hkind fun t r' ht hr' => ?_
  have hsource := ht.source
  rw [← hcutting] at hr' hsource
  refine runs_itemFrom_rule hhead hlast (ht.kind ▸ hkind) hsource hr' hgap (by omega)
    (fun start r'' hr'' => hinner items hitems gap' start r'' hgap'.2 ?_ hr'')
    fun body r'' hbody => hrest body r'' hbody.1 hbody.2
  simp only [List.length_append, List.length_cons]
  omega

/-- The items of a block, read up to its closing brace. -/
theorem runs_itemsFrom {body : Body} {text : List Char} (htext : text ∈ body.layouts)
    (h : r.At .block (gap ++ (text ++ '\x7d' :: rest)) room) (hgap : IsGap gap)
    (hn : (text ++ '\x7d' :: rest).length ≤ n) (hroom : (text ++ '\x7d' :: rest).length + 3 ≤ room)
    (start : Position) {Q : List Node → Reader → Prop}
    (hQ : ∀ nodes r', body.Nodes depth nodes → r'.At .block rest room →
      Q (found.reverse ++ nodes) r') :
    Runs (itemsFrom depth (some start) found n) r Q := by
  -- Each item takes two steps and at least two characters, so the characters left bound the steps.
  induction body generalizing depth gap text rest found n r Q start with
  | nil =>
    rw [Body.layouts, Language.mem_one] at htext
    subst htext
    obtain ⟨n, rfl⟩ : ∃ m, n = m + 1 := ⟨n - 1, by simp at hn; omega⟩
    refine runs_itemsFrom_end h hgap start fun r' hr' => ?_
    have hQ := hQ [] r' .nil hr'
    rw [List.append_nil] at hQ
    exact hQ
  | declaration name value more ih =>
    obtain ⟨first, hfirst, text, hmore, rfl⟩ := Language.mem_mul.1 htext
    have hlength := length_of_mem_declarationLayouts hfirst
    rw [List.append_assoc] at h hn hroom
    rw [List.length_append] at hn
    obtain ⟨n, rfl⟩ : ∃ m, n = m + 2 := ⟨n - 2, by omega⟩
    refine runs_itemsFrom_declaration hfirst h hgap hroom start
      fun position last r' hlast hr' => ?_
    rw [List.length_append] at hroom
    refine ih hmore hr' hlast (by omega) (by omega) start fun nodes r'' hnodes hr'' => ?_
    rw [List.reverse_cons, List.append_assoc]
    exact hQ _ r'' (.declaration hnodes) hr''
  | rule selector inner more ihinner ihmore =>
    obtain ⟨first, hfirst, text, hmore, rfl⟩ := Language.mem_mul.1 htext
    have hlength := length_of_mem_ruleLayouts hfirst
    rw [List.append_assoc] at h hn hroom
    obtain ⟨n, rfl⟩ : ∃ m, n = m + 2 := ⟨n - 2, by rw [List.length_append] at hn; omega⟩
    refine runs_itemsFrom_rule hfirst h hgap hroom
      (fun items hitems gap' start' r' hgap' hle hr' => ihinner hitems hr' hgap' (by omega)
        (by omega) start' fun nodes r'' hnodes hr'' => ⟨hnodes, hr''⟩)
      fun body r' hbody hr' => ?_
    rw [List.length_append] at hn hroom
    have hat : r'.At .block ([] ++ (text ++ '\x7d' :: rest)) room := hr'
    refine ihmore hmore hat isGap_nil (by omega) (by omega) start fun nodes r'' hnodes hr'' => ?_
    rw [List.reverse_cons, List.append_assoc]
    exact hQ _ r'' (.rule hbody hnodes) hr''

/-! ## Sheets -/

/-- The nodes of a tree. -/
def Tree.IsNode (t : Tree) (node : Node) : Prop :=
  ∃ body, node = .block (.style (selectorOf t.selector) 1) body ∧ t.body.Nodes 1 body

theorem runs_itemsFrom_sheet {trees : List Tree} {text : List Char}
    (htext : text ∈ (trees.map Tree.layouts).prod) (h : r.At .block text room) (hn : text.length < n)
    (hroom : text.length + 3 ≤ room) {Q : List Node → Reader → Prop}
    (hQ : ∀ nodes r', List.Forall₂ Tree.IsNode trees nodes → Q (found.reverse ++ nodes) r') :
    Runs (itemsFrom 0 none found n) r Q := by
  induction trees generalizing text found n r with
  | nil =>
    rw [List.map_nil, List.prod_nil, Language.mem_one] at htext
    subst htext
    obtain ⟨n, rfl⟩ : ∃ m, n = m + 1 := ⟨n - 1, by omega⟩
    rw [itemsFrom]
    refine runs_bind (runs_peek_end h isGap_nil fun r' => runs_pure ?_)
    have hQ := hQ [] r' .nil
    rw [List.append_nil] at hQ
    exact hQ
  | cons t trees ih =>
    rw [List.map_cons, List.prod_cons, Language.mem_mul] at htext
    obtain ⟨first, hfirst, text, htrees, rfl⟩ := htext
    have hlength := length_of_mem_ruleLayouts hfirst
    obtain ⟨n, rfl⟩ : ∃ m, n = m + 2 := ⟨n - 2, by rw [List.length_append] at hn; omega⟩
    have hat : r.At .block ([] ++ (first ++ text)) room := h
    refine runs_itemsFrom_rule hfirst hat isGap_nil hroom
      (fun items hitems gap start r' hgap hle hr' => runs_itemsFrom hitems hr' hgap (by omega)
        (by omega) start fun nodes r'' hnodes hr'' => ⟨hnodes, hr''⟩)
      fun body r' hbody hr' => ?_
    rw [List.length_append] at hn hroom
    refine ih htrees hr' (by omega) (by omega) fun nodes r'' hnodes => ?_
    rw [List.reverse_cons, List.append_assoc]
    exact hQ _ r'' (.cons ⟨body, rfl, hbody⟩ hnodes)

end Items

/-- A laid out list of trees is read as the nodes of these trees. -/
theorem exists_read {trees : List Tree} {source : String}
    (hsource : source.toList ∈ (trees.map Tree.layouts).prod) :
    ∃ nodes, Sheet.read source = .ok ⟨nodes⟩ ∧ List.Forall₂ Tree.IsNode trees nodes := by
  have hat : (Reader.ofSource source).At .block source.toList (8 * (source.length + 1)) :=
    ⟨rfl, rfl, rfl, rfl, rfl⟩
  have hlength : source.toList.length = source.length := String.length_toList
  have hruns : Runs (itemsFrom 0 none [] (8 * (source.length + 1))) (.ofSource source)
      fun nodes _ => List.Forall₂ Tree.IsNode trees nodes :=
    runs_itemsFrom_sheet hsource hat (by omega) (by omega) fun _ _ hnodes => hnodes
  obtain ⟨nodes, r, hrun, hnodes⟩ := hruns
  refine ⟨nodes, ?_, hnodes⟩
  have hread : (itemsFrom 0 none [] (Reader.ofSource source).room).run (.ofSource source) =
      .ok (nodes, r) := hrun
  simp only [Sheet.read, hread]

end Nesting

end Stylesheet
