import Stylesheet.Proofs.Value.Spelling

/-!
# Printed values are read back

The text of a value is cut into the tokens of the value. A minus at the head of a number is a sign
there, since no operand stands right before it, and a unit is glued to its number.

* `Lexer.Before`: a lexer before a text, within a value.
* `Printable.isCut`: the text of a value is cut into its tokens.
* `Value.read_text`: reading the text of a value gives the value.
-/

namespace Stylesheet

open Lexeme

/-! ## Lexemes -/

/-- What stands after a value. -/
def EndsValue (rest : List Char) : Prop := ∀ c ∈ rest.head?, c = ' ' ∨ c = ',' ∨ c = ')'

theorem EndsValue.endsName {rest : List Char} (h : EndsValue rest) :
    ∀ c ∈ rest.head?, isNameChar c = false ∧ c ≠ '\\' := by
  intro c hc
  rcases h c hc with rfl | rfl | rfl <;> decide

theorem isNameChar_of_isInitial {c : Char} (hc : isInitial c = true) : isNameChar c = true :=
  isNameChar_of_isPlain (isPlain_of_isInitial hc)

/-- An identifier ends at what is no part of a name, unless a url starts there. -/
theorem valueLexeme_identifier (signed : Bool) {c : Char} {cs rest : List Char}
    (hc : isInitial c = true) (hcs : ∀ d ∈ cs, isNameChar d = true)
    (hrest : ∀ d ∈ rest.head?, isNameChar d = false ∧ d ≠ '\\')
    (hurl : (c :: cs).map Char.toLower ≠ ['u', 'r', 'l'] ∨ rest.head? ≠ some '(') :
    valueLexeme signed c (cs ++ rest) = .ok (.ident, cs.length + 1) := by
  have hname : ∀ d ∈ c :: cs, isNameChar d = true :=
    List.forall_mem_cons.2 ⟨isNameChar_of_isInitial hc, hcs⟩
  have hlength := nameLength_of_isNameChar 0 hname hrest
  rw [Nat.zero_add] at hlength
  rw [valueLexeme_of_isInitial signed hc, ← List.cons_append, identLexeme, hlength]
  simp only [List.take_left, List.drop_left]
  rw [if_neg fun h => hurl.elim (fun hne => hne h.1) fun hne => hne h.2]
  rfl

theorem valueLexeme_reference (signed : Bool) {name rest : List Char} (hne : name ≠ [])
    (hname : ∀ c ∈ name, isNameChar c = true)
    (hrest : ∀ d ∈ rest.head?, isNameChar d = false ∧ d ≠ '\\') :
    valueLexeme signed '$' (name ++ rest) = .ok (.reference, name.length + 1) := by
  have hzero := nameLength_of_isNameChar 0 hname hrest
  have hone := nameLength_of_isNameChar 1 hname hrest
  have hlength : name.length ≠ 0 := fun h => hne (List.length_eq_zero_iff.1 h)
  simp [valueLexeme, isQuote, hzero, hone, hlength, Nat.add_comm]

/-! ### Numbers -/

/-- Neither a digit nor a point follows. -/
def EndsNumber (rest : List Char) : Prop := ∀ c ∈ rest.head?, Decimal.isDigit c = false ∧ c ≠ '.'

theorem EndsValue.endsNumber {rest : List Char} (h : EndsValue rest) : EndsNumber rest := by
  intro c hc
  rcases h c hc with rfl | rfl | rfl <;> decide

theorem digitsLength_append {digits rest : List Char}
    (hdigits : ∀ c ∈ digits, Decimal.isDigit c = true)
    (hrest : ∀ c ∈ rest.head?, Decimal.isDigit c = false) :
    digitsLength (digits ++ rest) = digits.length := by
  have hnone : rest.takeWhile Decimal.isDigit = [] := by
    cases rest with
    | nil => rfl
    | cons c cs => rw [List.takeWhile_cons_of_neg (by simp [hrest c rfl])]
  rw [digitsLength, List.takeWhile_append_of_pos hdigits, hnone, List.append_nil]

theorem fractionLength_append {fraction rest : List Char}
    (hfraction : fraction = [] ∨ ∃ digits, fraction = '.' :: digits ∧ IsDigits digits)
    (hrest : EndsNumber rest) : fractionLength (fraction ++ rest) = fraction.length := by
  rcases hfraction with rfl | ⟨digits, rfl, hne, hdigits⟩
  · cases rest with
    | nil => rfl
    | cons c cs =>
      rw [List.nil_append, fractionLength]
      · rfl
      · intro ds h
        exact (hrest c rfl).2 (List.cons.inj h).1
  · have hlength := digitsLength_append hdigits fun c hc => (hrest c hc).1
    have hzero : digits.length ≠ 0 := fun h => hne (List.length_eq_zero_iff.1 h)
    rw [List.cons_append, fractionLength, hlength, if_neg hzero, List.length_cons, Nat.add_comm]

theorem numberLength_append {whole fraction rest : List Char} (hwhole : IsDigits whole)
    (hfraction : fraction = [] ∨ ∃ digits, fraction = '.' :: digits ∧ IsDigits digits)
    (hrest : EndsNumber rest) :
    numberLength (whole ++ fraction ++ rest) = (whole ++ fraction).length := by
  have hnext : ∀ c ∈ (fraction ++ rest).head?, Decimal.isDigit c = false := by
    rcases hfraction with rfl | ⟨digits, rfl, -⟩
    · exact fun c hc => (hrest c hc).1
    · rintro c ⟨⟩
      decide
  rw [List.append_assoc, numberLength, digitsLength_append hwhole.2 hnext, List.drop_left,
    fractionLength_append hfraction hrest, List.length_append]

theorem isPlain_of_isDigit {c : Char} (hc : Decimal.isDigit c = true) : isPlain c = true := by
  simp [isPlain, hc]

theorem isIdentStart_of_isDigit {c : Char} (hc : Decimal.isDigit c = true) :
    (isIdentStart c || c == '-') = false :=
  isPlain_induction (P := fun c => Decimal.isDigit c = true → (isIdentStart c || c == '-') = false)
    (isPlain_of_isDigit hc) (by decide) hc

theorem startsNumber_of_isDigit {c : Char} (hc : Decimal.isDigit c = true) (cs : List Char) :
    startsNumber (c :: cs) = true := by
  have hdigits : digitsLength (c :: cs) = digitsLength cs + 1 := by
    rw [digitsLength, List.takeWhile_cons_of_pos hc, List.length_cons, digitsLength]
  simp only [startsNumber, numberLength, hdigits, bne_iff_ne, ne_eq]
  omega

theorem valueLexeme_of_isDigit (signed : Bool) {c : Char} (hc : Decimal.isDigit c = true)
    (cs : List Char) : valueLexeme signed c cs = .ok (.number, numberLength (c :: cs)) := by
  have hstarts := startsNumber_of_isDigit hc cs
  have hne : ∀ d ∈ marks, c ≠ d := fun d hd => ne_of_isPlain (isPlain_of_isDigit hc) hd
  simp only [marks, List.forall_mem_cons] at hne
  simp [valueLexeme, hstarts, isQuote, hne]

theorem valueLexeme_minus {c : Char} (hc : Decimal.isDigit c = true) (cs : List Char) :
    valueLexeme true '-' (c :: cs) = .ok (.number, 1 + numberLength (c :: cs)) := by
  have hstarts := startsNumber_of_isDigit hc cs
  have hminus := startsNumber_eq_false (c := '-') (by decide) (by decide) (c :: cs)
  have hpair := bind_pair?_eq_none (c := '-') (by decide) (c :: cs).head?
  have hany : (c :: cs).head?.any (fun d => isIdentStart d || d == '-') = false :=
    isIdentStart_of_isDigit hc
  simp only [valueLexeme, hstarts, hminus, hpair, hany]
  simp [isQuote]

/-- A numeral is cut off whole where its minus counts as a sign. -/
theorem valueLexeme_numeral {c : Char} {cs rest : List Char} (h : IsNumeral (c :: cs))
    (hrest : EndsNumber rest) : valueLexeme true c (cs ++ rest) = .ok (.number, cs.length + 1) := by
  obtain ⟨sign, whole, fraction, htext, hsign, hwhole, hfraction⟩ := h
  have hlength := numberLength_append hwhole hfraction hrest
  obtain ⟨d, ds, rfl⟩ := List.exists_cons_of_ne_nil hwhole.1
  have hd := hwhole.2 d List.mem_cons_self
  rcases hsign with rfl | rfl
  · obtain ⟨rfl, hcs⟩ := List.cons.inj htext
    have hcs : cs = ds ++ fraction := hcs
    rw [hcs, valueLexeme_of_isDigit true hd]
    exact congrArg (fun n => Except.ok (TokenKind.number, n)) hlength
  · obtain ⟨rfl, hcs⟩ := List.cons.inj htext
    have hcs : cs = d :: ds ++ fraction := hcs
    have hminus := valueLexeme_minus hd (ds ++ fraction ++ rest)
    rw [← List.cons_append, ← List.cons_append] at hminus
    rw [hcs, hminus, hlength, Nat.add_comm]

theorem unitLength_append {c : Char} {cs rest : List Char} (h : IsUnitText (c :: cs))
    (hrest : EndsValue rest) : startsUnit (c :: (cs ++ rest)) = true ∧
      unitLength (c :: (cs ++ rest)) = cs.length + 1 := by
  rcases h with h | h | ⟨d, ds, h, hd, hds⟩
  · cases h
  · obtain ⟨rfl, rfl⟩ := List.cons.inj h
    exact ⟨rfl, rfl⟩
  · obtain ⟨rfl, rfl⟩ := List.cons.inj h
    have hpercent : c ≠ '%' := by
      rintro rfl
      exact absurd hd (by decide)
    have hname : ∀ e ∈ c :: cs, isNameChar e = true :=
      List.forall_mem_cons.2 ⟨isNameChar_of_isInitial (isInitial_of_isLetter hd), hds⟩
    have hlength := nameLength_of_isNameChar 0 hname hrest.endsName
    rw [Nat.zero_add, List.cons_append] at hlength
    refine ⟨by simp [startsUnit, hd], ?_⟩
    rw [unitLength, if_neg (by simpa using hpercent), hlength, List.length_cons]

theorem IsUnitText.endsNumber {c : Char} {cs : List Char} (h : IsUnitText (c :: cs))
    (rest : List Char) : EndsNumber (c :: rest) := by
  rintro d ⟨⟩
  rcases h with h | h | ⟨d, ds, h, hd, -⟩
  · cases h
  · obtain ⟨rfl, -⟩ := List.cons.inj h
    decide
  · obtain ⟨rfl, -⟩ := List.cons.inj h
    obtain ⟨hdigit, hmarks⟩ := isInitial_facts (isInitial_of_isLetter hd)
    exact ⟨hdigit, fun hpoint => hmarks (by simp [hpoint])⟩

theorem EndsValue.startsUnit_eq_false {rest : List Char} (h : EndsValue rest) :
    startsUnit rest = false := by
  cases rest with
  | nil => rfl
  | cons c cs =>
    rcases h c rfl with rfl | rfl | rfl <;> rfl

/-- A numeral starts with a digit or with its sign. -/
theorem IsNumeral.head {c : Char} {cs : List Char} (h : IsNumeral (c :: cs)) :
    Text.isBlank c = false ∧ c ≠ '/' := by
  obtain ⟨sign, whole, fraction, htext, rfl | rfl, ⟨hne, hdigits⟩, -⟩ := h
  · obtain ⟨d, ds, rfl⟩ := List.exists_cons_of_ne_nil hne
    obtain ⟨rfl, -⟩ := List.cons.inj htext
    have hplain := isPlain_of_isDigit (hdigits c List.mem_cons_self)
    exact ⟨isBlank_of_isPlain hplain, ne_of_isPlain hplain (by decide)⟩
  · obtain ⟨rfl, -⟩ := List.cons.inj htext
    decide

theorem IsNumeral.ne_nil {text : List Char} (h : IsNumeral text) : text ≠ [] := by
  obtain ⟨sign, whole, fraction, rfl, -, ⟨hne, -⟩, -⟩ := h
  simp [hne]

/-! ## Lexers within a value -/

/-- A space, or nothing. -/
def gapOf (spaced : Bool) : List Char := if spaced then [' '] else []

namespace Lexer

/-- A lexer in a value, before `text` and after a token of kind `last`. -/
structure Before (l : Lexer) (last : Option TokenKind) (text : List Char) : Prop where
  rest : l.rest = text
  mode : l.mode = .value
  last : l.last = last
  unitDue : l.unitDue = false
  spaceDue : l.spaceDue = false

variable {l : Lexer} {last : Option TokenKind} {spaced : Bool} {kind : TokenKind} {c : Char}
  {word rest : List Char} {ps : List Spelling}

theorem Before.next (h : l.Before last (gapOf spaced ++ c :: (word ++ rest)))
    (hhead : Text.isBlank c = false ∧ c ≠ '/')
    (hlexeme : valueLexeme (spaced || !last.any TokenKind.isOperand) c (word ++ rest) =
      .ok (kind, word.length + 1)) :
    ∃ t l', l.next = (.ok (some t), l') ∧ t.spelling = ⟨kind, String.ofList (c :: word), spaced⟩ ∧
      l'.rest = rest ∧ l'.mode = .value ∧ l'.last = some kind ∧ l'.spaceDue = false ∧
      l'.unitDue = (kind == .number && startsUnit rest) := by
  have hgap : IsGap (gapOf spaced) := by
    cases spaced <;> simp [gapOf, IsGap]
  have hspaced : ((gapOf spaced).length != 0) = spaced := by
    cases spaced <;> rfl
  have hlength : gapLength (l.mode != .block) 0 l.rest = .ok (gapOf spaced).length := by
    rw [h.rest, gapLength_append _ 0 hgap _ (by rintro d ⟨⟩; exact hhead), Nat.zero_add]
  have hdrop : l.rest.drop (gapOf spaced).length = c :: (word ++ rest) := by
    rw [h.rest, List.drop_left]
  unfold Lexer.next
  rw [h.unitDue, hlength]
  simp only [Bool.false_eq_true, if_false, Lexer.skip, hdrop, h.spaceDue, Bool.false_or, hspaced,
    Lexer.lexeme, h.mode, h.last, hlexeme, Lexer.emit]
  refine ⟨_, _, rfl, ?_, ?_, rfl, rfl, rfl, ?_⟩
  · simp [Token.spelling]
  · simp
  · simp

/-- A token that is no number, and the tokens after it. -/
theorem Before.yields (h : l.Before last (gapOf spaced ++ c :: (word ++ rest)))
    (hhead : Text.isBlank c = false ∧ c ≠ '/')
    (hlexeme : valueLexeme (spaced || !last.any TokenKind.isOperand) c (word ++ rest) =
      .ok (kind, word.length + 1)) (hunit : (kind == .number && startsUnit rest) = false)
    (hrest : ∀ l' : Lexer, l'.Before (some kind) rest → l'.Yields ps) :
    l.Yields (⟨kind, String.ofList (c :: word), spaced⟩ :: ps) := by
  obtain ⟨t, l', hnext, hspelling, hl', hmode, hlast, hspace, hdue⟩ := h.next hhead hlexeme
  rw [← hspelling]
  exact .cons hnext (hrest l' ⟨hl', hmode, hlast, hdue.trans hunit, hspace⟩)

/-- A number with its unit, and the tokens after it. -/
theorem Before.yields_measured {d : Char} {unit : List Char}
    (h : l.Before last (gapOf spaced ++ c :: (word ++ (d :: (unit ++ rest)))))
    (hhead : Text.isBlank c = false ∧ c ≠ '/')
    (hlexeme : valueLexeme (spaced || !last.any TokenKind.isOperand) c
      (word ++ d :: (unit ++ rest)) = .ok (.number, word.length + 1))
    (hunit : startsUnit (d :: (unit ++ rest)) = true)
    (hlength : unitLength (d :: (unit ++ rest)) = unit.length + 1)
    (hrest : ∀ l' : Lexer, l'.Before (some .unit) rest → l'.Yields ps) :
    l.Yields (⟨.number, String.ofList (c :: word), spaced⟩ ::
      ⟨.unit, String.ofList (d :: unit), false⟩ :: ps) := by
  obtain ⟨t, l₁, hnext, hspelling, hl₁, hmode, -, hspace, hdue⟩ := h.next hhead hlexeme
  have hdue : l₁.unitDue = true := by
    rw [hdue, hunit]
    rfl
  obtain ⟨u, l₂, hnext₂, hu, hl₂⟩ : ∃ u l₂, l₁.next = (.ok (some u), l₂) ∧
      u.spelling = ⟨.unit, String.ofList (d :: unit), false⟩ ∧ l₂.Before (some .unit) rest := by
    unfold Lexer.next
    rw [hdue, if_pos rfl, hl₁, hlength]
    refine ⟨_, _, rfl, ?_, ?_, hmode, rfl, rfl, hspace⟩
    · simp [Token.spelling, hl₁]
    · simp [Lexer.skip, hl₁]
  rw [← hspelling, ← hu]
  exact .cons hnext (.cons hnext₂ (hrest l₂ hl₂))

theorem Before.yields_end (h : l.Before last []) : l.Yields [] := by
  have hlength : gapLength (l.mode != .block) 0 l.rest = .ok 0 := by
    rw [h.rest, gapLength]
  have hnext : l.next = (.ok none, { l.skip 0 with spaceDue := false }) := by
    unfold Lexer.next
    rw [h.unitDue, hlength]
    simp [Lexer.skip, h.rest]
  exact .nil hnext

end Lexer

/-! ## Texts of values -/

/-- The text of a value is cut into its tokens, if a sign may stand at its head. -/
def IsCutBack (v : Value) : Prop :=
  ∀ (spaced : Bool) (last : Option TokenKind) (rest : List Char) (ps : List Spelling) (l : Lexer),
    (spaced || !last.any TokenKind.isOperand) = true → EndsValue rest →
    (∀ last' (l' : Lexer), l'.Before last' rest → l'.Yields ps) →
    l.Before last (gapOf spaced ++ (v.text.toList ++ rest)) → l.Yields (v.spelled spaced ++ ps)

section Texts

variable {spaced : Bool} {last : Option TokenKind} {rest : List Char} {ps : List Spelling}
  {l : Lexer}

theorem yields_ident {s : String} (h : IsIdentifier s.toList)
    (hrest : ∀ d ∈ rest.head?, isNameChar d = false ∧ d ≠ '\\')
    (hurl : s.toList.map Char.toLower ≠ ['u', 'r', 'l'] ∨ rest.head? ≠ some '(')
    (hps : ∀ l' : Lexer, l'.Before (some .ident) rest → l'.Yields ps)
    (hl : l.Before last (gapOf spaced ++ (s.toList ++ rest))) :
    l.Yields (⟨.ident, s, spaced⟩ :: ps) := by
  obtain ⟨c, cs, hs, hc, hcs⟩ := h
  have hplain := isPlain_of_isInitial hc
  have htext : String.ofList (c :: cs) = s := by
    rw [← hs, String.ofList_toList]
  rw [hs] at hl hurl
  rw [← htext]
  exact hl.yields ⟨isBlank_of_isPlain hplain, ne_of_isPlain hplain (by decide)⟩
    (valueLexeme_identifier _ hc hcs hrest hurl) rfl hps

theorem yields_reference {name : String} (hne : name.toList ≠ [])
    (hname : ∀ c ∈ name.toList, isNameChar c = true) (hrest : EndsValue rest)
    (hps : ∀ l' : Lexer, l'.Before (some .reference) rest → l'.Yields ps)
    (hl : l.Before last (gapOf spaced ++ '$' :: (name.toList ++ rest))) :
    l.Yields (⟨.reference, "$" ++ name, spaced⟩ :: ps) := by
  have htext : String.ofList ('$' :: name.toList) = "$" ++ name := by
    rw [← String.toList_inj]
    simp
  rw [← htext]
  exact hl.yields (by decide) (valueLexeme_reference _ hne hname hrest.endsName) rfl hps

theorem yields_quantity {number unit : String} (hnumeral : IsNumeral number.toList)
    (hunit : IsUnitText unit.toList) (hsign : (spaced || !last.any TokenKind.isOperand) = true)
    (hrest : EndsValue rest) (hps : ∀ last' (l' : Lexer), l'.Before last' rest → l'.Yields ps)
    (hl : l.Before last (gapOf spaced ++ (number.toList ++ (unit.toList ++ rest)))) :
    l.Yields (⟨.number, number, spaced⟩ ::
      ((if unit = "" then [] else [⟨.unit, unit, false⟩]) ++ ps)) := by
  obtain ⟨c, cs, hnumber⟩ := List.exists_cons_of_ne_nil hnumeral.ne_nil
  have htext : String.ofList (c :: cs) = number := by
    rw [← hnumber, String.ofList_toList]
  rw [hnumber] at hnumeral hl
  rw [← htext]
  by_cases hempty : unit = ""
  · subst hempty
    have hlexeme := valueLexeme_numeral hnumeral hrest.endsNumber
    rw [← hsign] at hlexeme
    exact hl.yields hnumeral.head hlexeme hrest.startsUnit_eq_false (hps (some .number))
  · obtain ⟨d, ds, hds⟩ := List.exists_cons_of_ne_nil fun h => hempty (String.toList_eq_nil_iff.1 h)
    have hunitText : String.ofList (d :: ds) = unit := by
      rw [← hds, String.ofList_toList]
    rw [hds] at hunit hl
    rw [if_neg hempty, ← hunitText]
    have hlexeme := valueLexeme_numeral hnumeral (hunit.endsNumber (ds ++ rest))
    rw [← hsign] at hlexeme
    obtain ⟨hstarts, hlength⟩ := unitLength_append hunit hrest
    exact hl.yields_measured hnumeral.head hlexeme hstarts hlength (hps (some .unit))

theorem yields_mark {c : Char} (hc : c ∈ punctuation) {kind : TokenKind} (hkind : single c = kind)
    (hne : kind ≠ .number) (hps : ∀ l' : Lexer, l'.Before (some kind) rest → l'.Yields ps)
    (hl : l.Before last (c :: rest)) : l.Yields (⟨kind, String.singleton c, false⟩ :: ps) := by
  obtain ⟨hblank, hother, -⟩ := punctuation_facts hc
  have hslash : c ≠ '/' := fun h => hother (by simp [h])
  have hlexeme := valueLexeme_punctuation (false || !last.any TokenKind.isOperand) hc rest
  rw [hkind] at hlexeme
  have hl : l.Before last (gapOf false ++ c :: ([] ++ rest)) := hl
  exact hl.yields ⟨hblank, hslash⟩ hlexeme (by simp [hne]) hps

theorem isCutBack_ident {v : Value} {s : String} (hs : IsIdentifier s.toList) (htext : v.text = s)
    (hspelled : ∀ spaced, v.spelled spaced = [⟨.ident, s, spaced⟩]) : IsCutBack v := by
  intro spaced last rest ps l hsign hrest hps hl
  rw [htext] at hl
  rw [hspelled]
  have hparen : rest.head? ≠ some '(' := by
    intro h
    exact absurd (hrest '(' h) (by decide)
  exact yields_ident hs hrest.endsName (.inr hparen) (hps (some .ident)) hl

/-- The name of a function and the parenthesis after it. -/
theorem yields_call {name : String} (hname : IsFunctionName name.toList)
    (hps : ∀ l' : Lexer, l'.Before (some .leftParen) rest → l'.Yields ps)
    (hl : l.Before last (gapOf spaced ++ (name.toList ++ '(' :: rest))) :
    l.Yields (⟨.ident, name, spaced⟩ :: ⟨.leftParen, "(", false⟩ :: ps) := by
  refine yields_ident hname.1 ?_ (.inl hname.2) (fun l' hl' => ?_) hl
  · rintro c ⟨⟩
    decide
  · exact yields_mark (c := '(') (by decide) rfl (by decide) hps hl'

theorem yields_close (hps : ∀ last' (l' : Lexer), l'.Before last' rest → l'.Yields ps)
    (hl : l.Before last (')' :: rest)) : l.Yields (⟨.rightParen, ")", false⟩ :: ps) :=
  yields_mark (c := ')') (by decide) rfl (by decide) (hps _) hl

/-! ### Lists -/

/-- What follows the first item in the text of a list. -/
def textRest (separator : Separator) (vs : List Value) : List Char :=
  vs.flatMap fun v => separator.text.toList ++ v.text.toList

theorem toList_intercalate_texts (separator : Separator) (v : Value) (vs : List Value) :
    (separator.text.intercalate (Value.texts (v :: vs))).toList =
      v.text.toList ++ textRest separator vs := by
  induction vs generalizing v with
  | nil => simp [Value.texts, textRest]
  | cons w vs ih =>
    have hrest := ih w
    rw [Value.texts] at hrest ⊢
    rw [Value.texts, String.intercalate_cons_cons, String.toList_append, String.toList_append,
      hrest]
    simp [textRest]

theorem endsValue_textRest (separator : Separator) (vs : List Value) (hrest : EndsValue rest) :
    EndsValue (textRest separator vs ++ rest) := by
  cases vs with
  | nil => exact hrest
  | cons v vs =>
    cases separator with
    | space =>
      rintro c ⟨⟩
      exact .inl rfl
    | comma =>
      rintro c ⟨⟩
      exact .inr (.inl rfl)

/-- The items after the first one stand after a space, so that a sign may start them. -/
theorem yields_textRest (separator : Separator) {vs : List Value} (hvs : ∀ v ∈ vs, IsCutBack v)
    (hrest : EndsValue rest) (hps : ∀ last' (l' : Lexer), l'.Before last' rest → l'.Yields ps)
    (hl : l.Before last (textRest separator vs ++ rest)) :
    l.Yields (Value.spelledRest separator vs ++ ps) := by
  induction vs generalizing l last with
  | nil => exact hps last l hl
  | cons v vs ih =>
    obtain ⟨hv, hvs⟩ := List.forall_mem_cons.1 hvs
    have hspelled : Value.spelledRest separator (v :: vs) ++ ps =
        separator.spelled ++ (v.spelled true ++ (Value.spelledRest separator vs ++ ps)) := by
      rw [Value.spelledRest, List.append_assoc, List.append_assoc]
    have htext : textRest separator (v :: vs) ++ rest =
        separator.text.toList ++ (v.text.toList ++ (textRest separator vs ++ rest)) := by
      simp [textRest]
    have hends := endsValue_textRest separator vs hrest
    rw [hspelled]
    rw [htext] at hl
    cases separator with
    | space => exact hv true last _ _ l rfl hends (fun _ _ hl' => ih hvs hl') hl
    | comma =>
      refine yields_mark (c := ',') (by decide) rfl (by decide) (fun l' hl' => ?_) hl
      exact hv true _ _ _ l' rfl hends (fun _ _ hl'' => ih hvs hl'') hl'

theorem isCutBack_of_texts {v : Value} {separator : Separator} {w : Value} {vs : List Value}
    (htext : v.text.toList = w.text.toList ++ textRest separator vs)
    (hspelled : ∀ spaced, v.spelled spaced = Value.spelledAll separator spaced (w :: vs))
    (hvs : ∀ u ∈ w :: vs, IsCutBack u) : IsCutBack v := by
  intro spaced last rest ps l hsign hrest hps hl
  obtain ⟨hw, hvs⟩ := List.forall_mem_cons.1 hvs
  rw [htext, List.append_assoc] at hl
  rw [hspelled, Value.spelledAll, List.append_assoc]
  exact hw spaced last _ _ l hsign (endsValue_textRest separator vs hrest)
    (fun _ _ hl' => yields_textRest separator hvs hrest hps hl') hl

end Texts

theorem toList_text_ofComponents (v : Value) (vs : List Value) :
    (Value.ofComponents (v :: vs)).text.toList = v.text.toList ++ textRest .space vs := by
  cases vs with
  | nil => simp [Value.ofComponents, textRest]
  | cons w vs =>
    rw [Value.ofComponents, Value.text]
    · exact toList_intercalate_texts .space v (w :: vs)
    · simp

theorem toList_text_ofGroups (v : Value) (vs : List Value) :
    (Value.ofGroups (v :: vs)).text.toList = v.text.toList ++ textRest .comma vs := by
  cases vs with
  | nil => simp [Value.ofGroups, textRest]
  | cons w vs =>
    rw [Value.ofGroups, Value.text]
    · exact toList_intercalate_texts .comma v (w :: vs)
    · simp

/-- The text of a value that can be printed is cut into its tokens. -/
theorem Printable.isCutBack {k : Rank} {v : Value} (h : Printable k v) : IsCutBack v := by
  induction h with
  | literal h htrue hfalse =>
    exact isCutBack_ident h (by rw [Value.text]) fun spaced => by rw [Value.spelled]
  | boolean truth =>
    refine isCutBack_ident ?_ (by rw [Value.text]) fun spaced => by rw [Value.spelled]
    cases truth with
    | false => exact ⟨'f', ['a', 'l', 's', 'e'], rfl, by decide, List.all_eq_true.1 (by decide)⟩
    | true => exact ⟨'t', ['r', 'u', 'e'], rfl, by decide, List.all_eq_true.1 (by decide)⟩
  | reference hne h =>
    intro spaced last rest ps l hsign hrest hps hl
    rw [Value.text, String.toList_append] at hl
    rw [Value.spelled]
    exact yields_reference hne h hrest (hps _) hl
  | quantity hnumeral hread hunit =>
    intro spaced last rest ps l hsign hrest hps hl
    rw [Value.text, Quantity.text, String.toList_append, List.append_assoc] at hl
    rw [Value.spelled]
    exact yields_quantity hnumeral hunit hsign hrest hps hl
  | @emptyCall name hname =>
    intro spaced last rest ps l hsign hrest hps hl
    have htext : (Value.call name (.list [] .space)).text.toList ++ rest =
        name.toList ++ '(' :: ')' :: rest := by
      simp [Value.text, Value.texts]
    have hspelled : (Value.call name (.list [] .space)).spelled spaced =
        [⟨.ident, name, spaced⟩, ⟨.leftParen, "(", false⟩, ⟨.rightParen, ")", false⟩] := by
      rw [Value.spelled, Value.spelled, Value.spelledAll, List.nil_append]
    rw [htext] at hl
    rw [hspelled]
    exact yields_call hname (fun l' hl' => yields_close hps hl') hl
  | @call name args hname hargs ih =>
    intro spaced last rest ps l hsign hrest hps hl
    have htext : (Value.call name args).text.toList ++ rest =
        name.toList ++ '(' :: (args.text.toList ++ ')' :: rest) := by
      simp [Value.text]
    rw [htext] at hl
    rw [Value.spelled, List.cons_append, List.cons_append, List.append_assoc]
    refine yields_call hname (fun l' hl' => ?_) hl
    refine ih false _ _ _ l' rfl ?_ (fun _ l'' hl'' => yields_close hps hl'') hl'
    rintro c ⟨⟩
    exact .inr (.inr rfl)
  | @group items hne hitems ih =>
    obtain ⟨v, vs, rfl⟩ := List.exists_cons_of_ne_nil hne
    exact isCutBack_of_texts (toList_text_ofComponents v vs)
      (fun spaced => Value.spelled_ofComponents spaced (v :: vs)) ih
  | @list groups hne hgroups ih =>
    obtain ⟨v, vs, rfl⟩ := List.exists_cons_of_ne_nil hne
    exact isCutBack_of_texts (toList_text_ofGroups v vs)
      (fun spaced => Value.spelled_ofGroups spaced (v :: vs)) ih

/-! ## Reading back -/

theorem Printable.toGroup {v : Value} (h : Printable .item v) : Printable .group v :=
  .group (List.cons_ne_nil v []) (List.forall_mem_singleton.2 h)

/-- What stands between spaces or commas may stand by itself. -/
theorem Printable.toList {k : Rank} {v : Value} (h : Printable k v) : Printable .list v := by
  have hgroup : ∀ {w : Value}, Printable .group w → Printable .list w := fun {w} hw =>
    .list (List.cons_ne_nil w []) (List.forall_mem_singleton.2 hw)
  cases k with
  | item => exact hgroup h.toGroup
  | group => exact hgroup h
  | list => exact h

/-- The reader of a text that is read as a value. -/
def Reader.ofValueText (text : String) : Reader :=
  { Reader.ofSource text with lexer := (Lexer.ofSource text).setMode .value }

theorem Reader.has_ofValueText (text : String) :
    (ofValueText text).Has text.toList text.toList.length :=
  (Reading.reads_setMode .value _ (has_ofSource text)).1

theorem Printable.holds {k : Rank} {v : Value} (h : Printable k v) :
    (Reader.ofValueText v.text).Holds (v.spelled false ++ []) := by
  have hbefore : (Reader.ofValueText v.text).lexer.Before none
      (gapOf false ++ (v.text.toList ++ [])) := by
    refine ⟨?_, rfl, rfl, rfl, rfl⟩
    rw [List.append_nil]
    rfl
  exact .fresh rfl (h.isCutBack false none [] [] _ rfl (by rintro c ⟨⟩)
    (fun _ _ hl => hl.yields_end) hbefore)

namespace Reading

/-- A value is read with the steps that the source allows. -/
theorem runs_valueList_of_has {r : Reader} {source : List Char} {j n : Nat} (hr : r.Has source j)
    {Q : Value → Reader → Prop} (h : Runs (valueListIn {} n) r Q) : Runs valueList r Q := by
  obtain ⟨a, r', hrun, hQ⟩ := h
  have hroom := hr.room
  have hbound := hr.bound
  simp only [Reader.stepsPerToken] at hroom
  exact runs_bind (runs_room ⟨a, r', valueListIn_of_has hr (by omega) hrun, hQ⟩)

theorem map_fst_of_runs {α : Type} {p : Reading α} {r : Reader} {a : α}
    (h : Runs p r fun b _ => b = a) : (p.run r).map Prod.fst = .ok a := by
  obtain ⟨b, r', hrun, rfl⟩ := h
  exact congrArg (Except.map Prod.fst) hrun

end Reading

open Reading in
/-- Reading the text of a value that can be printed gives the value. -/
theorem Value.read_text {k : Rank} {v : Value} (h : Printable k v) : Value.read v.text = .ok v := by
  obtain ⟨n, hn⟩ := h.toList.readsBack {} false [] _ (by rintro p ⟨⟩) h.holds
  refine map_fst_of_runs (runs_bind ⟨(), .ofValueText v.text, rfl, runs_bind ?_⟩)
  refine runs_valueList_of_has (n := n) (Reader.has_ofValueText v.text) ?_
  obtain ⟨a, r', hrun, rfl, hr'⟩ := hn
  refine ⟨a, r', hrun, runs_bind (hr'.runs_next fun t r'' ht _ => ?_)⟩
  cases t with
  | none => exact runs_pure rfl
  | some t => cases ht

def minusOneAndAHalf : Float := Float.ofBits 0xbff8000000000000

theorem printable_minusOneAndAHalf : Printable .item (.quantity ⟨minusOneAndAHalf, "px"⟩) := by
  have htext : Quantity.numberText minusOneAndAHalf = "-1.5" := by decide +kernel
  have hread : Numeral.read? "-1.5" = some (.finite true 15 (-1)) := rfl
  have hbits : Numeral.bits Binary.double (.finite true 15 (-1)) = 0xbff8000000000000 := by
    rw [Numeral.bits]
    decide +kernel
  refine .quantity ?_ ?_ (.inr (.inr ⟨'p', ['x'], rfl, by decide, List.all_eq_true.1 (by decide)⟩))
  · rw [htext]
    exact ⟨['-'], ['1'], ['.', '5'], rfl, .inr rfl, ⟨by simp, List.all_eq_true.1 (by decide)⟩,
      .inr ⟨['5'], rfl, by simp, List.all_eq_true.1 (by decide)⟩⟩
  · rw [htext, hread, Option.map_some, Numeral.toDouble, hbits]
    rfl

/-- The value of `foo(bar $x, true), _a-b -1.5px calc()`. -/
def callsInLists : Value :=
  .list [.call "foo" (.list [.list [.literal "bar", .reference "x"] .space, .boolean true] .comma),
    .list [.literal "_a-b", .quantity ⟨minusOneAndAHalf, "px"⟩, .call "calc" (.list [] .space)]
      .space] .comma

theorem printable_callsInLists : Printable .list callsInLists := by
  have hgroup : ∀ {v w : Value} {vs : List Value}, (∀ u ∈ v :: w :: vs, Printable .item u) →
      Printable .group (.list (v :: w :: vs) .space) := .group (List.cons_ne_nil _ _)
  have hlist : ∀ {v w : Value}, Printable .group v → Printable .group w →
      Printable .list (.list [v, w] .comma) := fun {v w} hv hw =>
    .list (List.cons_ne_nil v [w]) (List.forall_mem_cons.2 ⟨hv, List.forall_mem_singleton.2 hw⟩)
  have hbar : Printable .item (.literal "bar") :=
    .literal ⟨'b', ['a', 'r'], rfl, by decide, List.all_eq_true.1 (by decide)⟩ (by decide)
      (by decide)
  have hword : Printable .item (.literal "_a-b") :=
    .literal ⟨'_', ['a', '-', 'b'], rfl, by decide, List.all_eq_true.1 (by decide)⟩ (by decide)
      (by decide)
  have hfoo : IsFunctionName "foo".toList :=
    ⟨⟨'f', ['o', 'o'], rfl, by decide, List.all_eq_true.1 (by decide)⟩, by decide⟩
  have hcalc : IsFunctionName "calc".toList :=
    ⟨⟨'c', ['a', 'l', 'c'], rfl, by decide, List.all_eq_true.1 (by decide)⟩, by decide⟩
  have hx : Printable .item (.reference "x") :=
    .reference (by decide) (List.all_eq_true.1 (by decide))
  have hfirst : ∀ v ∈ [.literal "bar", .reference "x"], Printable .item v := by simp [hbar, hx]
  have hsecond : ∀ v ∈ [.literal "_a-b", .quantity ⟨minusOneAndAHalf, "px"⟩,
      .call "calc" (.list [] .space)], Printable .item v := by
    simp [hword, printable_minusOneAndAHalf, Printable.emptyCall hcalc]
  have hargs := hlist (hgroup hfirst) (Printable.boolean true).toGroup
  exact hlist (Printable.call hfoo hargs).toGroup (hgroup hsecond)

theorem read_text_callsInLists : Printable .list callsInLists ∧
    callsInLists.text = "foo(bar $x, true), _a-b -1.5px calc()" ∧
    Value.read callsInLists.text = .ok callsInLists :=
  ⟨printable_callsInLists, by decide +kernel, Value.read_text printable_callsInLists⟩

end Stylesheet
