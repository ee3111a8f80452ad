import Stylesheet.Token.Lexer

/-!
# Where tokens are cut

Which token stands at the head of a text, for the texts that plain rules are written in: names,
punctuation, blanks, and the words of selectors.

* `isPlain`: the characters of ASCII names.
* `Cut`: a word at the head of a text is a token of a kind.
* `itemEnd_append`: looking ahead finds the first brace or semicolon after quiet characters.
-/

namespace Stylesheet

open Lexeme

/-! ## Characters -/

/-- The characters of ASCII names. -/
def isPlain (c : Char) : Bool := isLetter c || Decimal.isDigit c || c == '-' || c == '_'

theorem toNat_lt_of_le {c d : Char} (h : c ≤ d) (hd : d.toNat < 128) : c.toNat < 128 :=
  Nat.lt_of_le_of_lt (UInt32.le_iff_toNat_le.1 h) hd

theorem toNat_lt_of_isPlain {c : Char} (h : isPlain c = true) : c.toNat < 128 := by
  simp only [isPlain, isLetter, Decimal.isDigit, Bool.or_eq_true, Bool.and_eq_true,
    decide_eq_true_eq, beq_iff_eq] at h
  rcases h with ((((⟨_, h⟩ | ⟨_, h⟩) | ⟨_, h⟩) | rfl) | rfl)
  · exact toNat_lt_of_le h (by decide)
  · exact toNat_lt_of_le h (by decide)
  · exact toNat_lt_of_le h (by decide)
  · decide
  · decide

/-- What can be checked for every ASCII character holds of every character of a name. -/
theorem isPlain_induction {P : Char → Prop} {c : Char} (hc : isPlain c = true)
    (h : ∀ n < 128, isPlain (Char.ofNat n) = true → P (Char.ofNat n)) : P c := by
  have hofNat := h c.toNat (toNat_lt_of_isPlain hc)
  rw [Char.ofNat_toNat] at hofNat
  exact hofNat hc

theorem isNameChar_of_isPlain {c : Char} (hc : isPlain c = true) : isNameChar c = true := by
  simp only [isPlain, Bool.or_eq_true] at hc
  simp only [Lexeme.isNameChar, Bool.or_eq_true]
  exact .inl hc

theorem isBlank_of_isPlain {c : Char} (hc : isPlain c = true) : Text.isBlank c = false :=
  isPlain_induction (P := fun c => Text.isBlank c = false) hc (by decide)

/-- The characters besides blanks that end a name or start something else than a name. -/
def marks : List Char :=
  ['"', '\'', '/', '\\', '(', ')', '[', ']', ';', '\x7b', '\x7d', '#', '.', ',', '&', '$', '@', ':',
    '!']

theorem ne_of_isPlain {c d : Char} (hc : isPlain c = true) (hd : d ∈ marks) : c ≠ d := by
  have hmarks := isPlain_induction (P := fun c => c ∉ marks) hc (by decide)
  rintro rfl
  exact hmarks hd

/-! ## Blanks -/

/-- A run of spaces and newlines. -/
def IsGap (gap : List Char) : Prop := ∀ c ∈ gap, c = ' ' ∨ c = '\n'

theorem isGap_nil : IsGap [] := by simp [IsGap]

theorem IsGap.isBlank {gap : List Char} (h : IsGap gap) {c : Char} (hc : c ∈ gap) :
    Text.isBlank c = true := by
  rcases h c hc with rfl | rfl <;> decide

theorem gapLength_append (comments : Bool) (n : Nat) {gap : List Char} (hgap : IsGap gap)
    (rest : List Char) (hrest : ∀ c ∈ rest.head?, Text.isBlank c = false ∧ c ≠ '/') :
    gapLength comments n (gap ++ rest) = .ok (n + gap.length) := by
  induction gap generalizing n with
  | nil =>
    cases rest with
    | nil => rw [List.nil_append, gapLength]; rfl
    | cons c cs =>
      obtain ⟨hblank, hslash⟩ := hrest c rfl
      rw [List.nil_append, gapLength]
      simp [hblank, hslash]
  | cons c gap ih =>
    have hc := hgap.isBlank List.mem_cons_self
    rw [List.cons_append, gapLength, if_pos hc, ih (n + 1) fun d hd => hgap d (List.mem_cons_of_mem c hd),
      List.length_cons]
    congr 1
    omega

/-! ## Names -/

/-- Whether a name and the word before a bracket end before a text. -/
def EndsName (rest : List Char) : Prop :=
  ∀ c ∈ rest.head?, isNameChar c = false ∧ c ≠ '\\' ∧ c ≠ '('

theorem nameLength_cons (n : Nat) {c : Char} (hc : c ≠ '\\') (cs : List Char) :
    nameLength n (c :: cs) = if isNameChar c then nameLength (n + 1) cs else n := by
  rw [nameLength]
  · intro h
    simp_all
  · intro d ds h
    simp_all

/-- Characters of names are counted up to the first other one. -/
theorem nameLength_of_isNameChar (n : Nat) {name rest : List Char}
    (hname : ∀ c ∈ name, isNameChar c = true)
    (hrest : ∀ c ∈ rest.head?, isNameChar c = false ∧ c ≠ '\\') :
    nameLength n (name ++ rest) = n + name.length := by
  induction name generalizing n with
  | nil =>
    cases rest with
    | nil => rw [List.nil_append, nameLength]; rfl
    | cons c cs =>
      obtain ⟨hc, hslash⟩ := hrest c rfl
      rw [List.nil_append, nameLength_cons n hslash, hc]
      rfl
  | cons c name ih =>
    have hc : isNameChar c = true := hname c List.mem_cons_self
    have hslash : c ≠ '\\' := by
      rintro rfl
      exact absurd hc (by decide)
    rw [List.cons_append, nameLength_cons n hslash, if_pos hc,
      ih (n + 1) fun d hd => hname d (List.mem_cons_of_mem c hd), List.length_cons]
    omega

theorem nameLength_append (n : Nat) {name rest : List Char} (hname : ∀ c ∈ name, isPlain c = true)
    (hrest : EndsName rest) : nameLength n (name ++ rest) = n + name.length := by
  refine nameLength_of_isNameChar n (fun c hc => isNameChar_of_isPlain (hname c hc)) fun c hc => ?_
  obtain ⟨hc, hslash, -⟩ := hrest c hc
  exact ⟨hc, hslash⟩

/-! ## Tokens -/

/-- In a mode, the head of `word ++ rest` is cut off as a token of a kind with the text `word`. -/
structure Cut (mode : LexicalMode) (kind : TokenKind) (word rest : List Char) : Prop where
  head : ∀ c ∈ (word ++ rest).head?, Text.isBlank c = false ∧ c ≠ '/'
  lexeme : ∃ c cs, word ++ rest = c :: cs ∧ ∀ (l : Lexer) (spaceBefore : Bool), l.mode = mode →
    l.lexeme spaceBefore c cs = .ok (kind, word.length)

theorem cut_selector {kind : TokenKind} {c : Char} {word rest : List Char}
    (hblank : Text.isBlank c = false) (hslash : c ≠ '/')
    (h : selectorLexeme c (word ++ rest) = .ok (kind, word.length + 1)) :
    Cut .selector kind (c :: word) rest := by
  refine ⟨?_, c, word ++ rest, rfl, ?_⟩
  · rintro d hd
    cases hd
    exact ⟨hblank, hslash⟩
  · intro l spaceBefore hmode
    rw [Lexer.lexeme, hmode]
    exact h

theorem cut_value {mode : LexicalMode} (hmode : mode ≠ .selector) {kind : TokenKind} {c : Char}
    {word rest : List Char} (hblank : Text.isBlank c = false) (hslash : c ≠ '/')
    (h : ∀ signed, valueLexeme signed c (word ++ rest) = .ok (kind, word.length + 1)) :
    Cut mode kind (c :: word) rest := by
  refine ⟨?_, c, word ++ rest, rfl, ?_⟩
  · rintro d hd
    cases hd
    exact ⟨hblank, hslash⟩
  · intro l spaceBefore hl
    rw [Lexer.lexeme, hl]
    cases mode with
    | selector => exact absurd rfl hmode
    | block => exact h _
    | value => exact h _

/-! ## Punctuation -/

theorem cut_selector_comma (rest : List Char) : Cut .selector .comma [','] rest :=
  cut_selector (by decide) (by decide) rfl

theorem cut_selector_leftBrace (rest : List Char) : Cut .selector .leftBrace ['\x7b'] rest :=
  cut_selector (by decide) (by decide) rfl

theorem startsNumber_eq_false {c : Char} (hdigit : Decimal.isDigit c = false) (hpoint : c ≠ '.')
    (cs : List Char) : startsNumber (c :: cs) = false := by
  have hdigits : digitsLength (c :: cs) = 0 := by
    rw [digitsLength, List.takeWhile_cons_of_neg (by simp [hdigit])]
    rfl
  have hfraction : fractionLength (c :: cs) = 0 := by
    rw [fractionLength]
    intro ds h
    exact hpoint (List.cons.inj h).1
  rw [startsNumber, numberLength, hdigits, List.drop_zero, hfraction]
  rfl

theorem bind_pair?_eq_none {c : Char} (hc : c ∉ ['#', '=', '!', '>', '<']) (next : Option Char) :
    next.bind (pair? c) = none := by
  cases next with
  | none => rfl
  | some d =>
    rw [Option.bind_some, pair?] <;>
    · rintro rfl
      simp at hc

/-- The characters that are tokens by themselves in a block and in a value. -/
def punctuation : List Char := [':', ';', ',', '\x7b', '\x7d', '(', ')']

theorem punctuation_facts {c : Char} (hc : c ∈ punctuation) :
    Text.isBlank c = false ∧ c ∉ ['/', '.', '#', '=', '!', '>', '<'] ∧
      Decimal.isDigit c = false := by
  simp only [punctuation, List.mem_cons, List.not_mem_nil, or_false] at hc
  rcases hc with rfl | rfl | rfl | rfl | rfl | rfl | rfl <;> decide

theorem valueLexeme_punctuation (signed : Bool) {c : Char} (hc : c ∈ punctuation)
    (rest : List Char) : valueLexeme signed c rest = .ok (single c, 1) := by
  obtain ⟨-, hother, hdigit⟩ := punctuation_facts hc
  simp only [List.mem_cons, List.not_mem_nil, or_false, not_or] at hother
  obtain ⟨-, hpoint, hpairs⟩ := hother
  have hpair : rest.head?.bind (pair? c) = none := bind_pair?_eq_none (by simpa using hpairs) _
  have hnumber : startsNumber (c :: rest) = false := startsNumber_eq_false hdigit hpoint rest
  simp only [punctuation, List.mem_cons, List.not_mem_nil, or_false] at hc
  rcases hc with rfl | rfl | rfl | rfl | rfl | rfl | rfl <;>
    simp [valueLexeme, isQuote, hnumber, hpair, isIdentStart, isLetter, isAscii]

theorem cut_punctuation {mode : LexicalMode} (hmode : mode ≠ .selector) {c : Char}
    (hc : c ∈ punctuation) {kind : TokenKind} (hkind : single c = kind) {rest : List Char} :
    Cut mode kind [c] rest := by
  subst hkind
  obtain ⟨hblank, hother, -⟩ := punctuation_facts hc
  refine cut_value hmode hblank (fun hslash => hother (by simp [hslash])) fun signed => ?_
  exact valueLexeme_punctuation signed hc rest

/-! ## Identifiers -/

/-- The characters that an ASCII identifier starts with. -/
def isInitial (c : Char) : Bool := isLetter c || c == '_'

/-- ASCII identifiers: at most one minus, a letter, an underscore or a second minus, then characters
of names. -/
def isIdentText : List Char → Bool
  | '-' :: c :: cs => (isInitial c || c == '-') && cs.all isPlain
  | c :: cs => isInitial c && cs.all isPlain
  | [] => false

theorem isPlain_of_isInitial {c : Char} (hc : isInitial c = true) : isPlain c = true := by
  simp only [isInitial, Bool.or_eq_true] at hc
  rcases hc with hc | hc <;> simp [isPlain, hc]

theorem isIdentStart_of_isInitial {c : Char} (hc : isInitial c = true) : isIdentStart c = true := by
  simp only [isInitial, Bool.or_eq_true] at hc
  rcases hc with hc | hc <;> simp [isIdentStart, hc]

/-- The characters that are plain and no initials, and those that stand before an initial. -/
theorem isInitial_facts {c : Char} (hc : isInitial c = true) :
    Decimal.isDigit c = false ∧ c ∉ ['-', '.', '#', '=', '!', '>', '<'] := by
  refine isPlain_induction (P := fun c => isInitial c = true →
    Decimal.isDigit c = false ∧ c ∉ ['-', '.', '#', '=', '!', '>', '<'])
    (isPlain_of_isInitial hc) ?_ hc
  decide

theorem isIdentText_cases {word : List Char} (h : isIdentText word = true) :
    (∃ c cs, word = '-' :: c :: cs ∧ (isInitial c = true ∨ c = '-') ∧ ∀ d ∈ cs, isPlain d = true) ∨
    ∃ c cs, word = c :: cs ∧ isInitial c = true ∧ ∀ d ∈ cs, isPlain d = true := by
  unfold isIdentText at h
  split at h
  · simp only [Bool.and_eq_true, Bool.or_eq_true, beq_iff_eq, List.all_eq_true] at h
    exact .inl ⟨_, _, rfl, h⟩
  · simp only [Bool.and_eq_true, List.all_eq_true] at h
    exact .inr ⟨_, _, rfl, h⟩
  · cases h

theorem isPlain_of_isIdentText {word : List Char} (h : isIdentText word = true) {c : Char}
    (hc : c ∈ word) : isPlain c = true := by
  rcases isIdentText_cases h with ⟨d, ds, rfl, hd, hds⟩ | ⟨d, ds, rfl, hd, hds⟩
  · rcases List.mem_cons.1 hc with rfl | hc
    · decide
    · rcases List.mem_cons.1 hc with rfl | hc
      · rcases hd with hd | rfl
        · exact isPlain_of_isInitial hd
        · decide
      · exact hds c hc
  · rcases List.mem_cons.1 hc with rfl | hc
    · exact isPlain_of_isInitial hd
    · exact hds c hc

theorem identLexeme_append {word rest : List Char} (hword : ∀ c ∈ word, isPlain c = true)
    (hrest : EndsName rest) : identLexeme (word ++ rest) = .ok (.ident, word.length) := by
  have hlength := nameLength_append 0 hword hrest
  rw [Nat.zero_add] at hlength
  have hparen : rest.head? ≠ some '(' := fun h => (hrest '(' h).2.2 rfl
  simp [identLexeme, hlength, hparen]

theorem valueLexeme_of_isInitial (signed : Bool) {c : Char} (hc : isInitial c = true)
    (cs : List Char) : valueLexeme signed c cs = identLexeme (c :: cs) := by
  obtain ⟨hdigit, hmarks⟩ := isInitial_facts hc
  simp only [List.mem_cons, List.not_mem_nil, or_false, not_or] at hmarks
  have hnumber := startsNumber_eq_false hdigit hmarks.2.1 cs
  have hpair : cs.head?.bind (pair? c) = none := bind_pair?_eq_none (by simp [hmarks]) _
  have hne : ∀ d ∈ marks, c ≠ d := fun d hd => ne_of_isPlain (isPlain_of_isInitial hc) hd
  simp only [marks, List.forall_mem_cons] at hne
  simp only [valueLexeme, hnumber, hpair, isIdentStart_of_isInitial hc]
  simp [isQuote, hne, hmarks]

theorem cut_ident {mode : LexicalMode} (hmode : mode ≠ .selector) {word rest : List Char}
    (hword : isIdentText word = true) (hrest : EndsName rest) : Cut mode .ident word rest := by
  have hplain : ∀ c ∈ word, isPlain c = true := fun c hc => isPlain_of_isIdentText hword hc
  rcases isIdentText_cases hword with ⟨c, cs, rfl, hc, hcs⟩ | ⟨c, cs, rfl, hc, hcs⟩
  · refine cut_value hmode (by decide) (by decide) fun signed => ?_
    have hlength := nameLength_append 1
      (fun d hd => hplain d (List.mem_cons_of_mem '-' hd)) hrest
    have hnumber := startsNumber_eq_false (c := '-') (by decide) (by decide) (c :: cs ++ rest)
    have hpair := bind_pair?_eq_none (c := '-') (by decide) (c :: cs ++ rest).head?
    have hnext : (isIdentStart c || c == '-') = true := by
      rcases hc with hc | rfl
      · rw [isIdentStart_of_isInitial hc]
        rfl
      · decide
    have hany : (c :: cs ++ rest).head?.any (fun d => isIdentStart d || d == '-') = true := hnext
    simp only [valueLexeme, hnumber, hpair, hany, hlength]
    simp [isQuote, Nat.add_comm]
  · have hc' := isPlain_of_isInitial hc
    refine cut_value hmode (isBlank_of_isPlain hc') (ne_of_isPlain hc' (by decide)) fun signed => ?_
    rw [valueLexeme_of_isInitial signed hc]
    exact identLexeme_append hplain hrest

/-! ## Words of selectors -/

/-- Words of selectors: a letter, or a point or a hash sign with a character of names after it, then
characters of names. -/
def isWordText : List Char → Bool
  | '.' :: c :: cs => isPlain c && cs.all isPlain
  | '#' :: c :: cs => isPlain c && cs.all isPlain
  | c :: cs => isLetter c && cs.all isPlain
  | [] => false

theorem isWordText_cases {word : List Char} (h : isWordText word = true) :
    (∃ sign c cs, word = sign :: c :: cs ∧ (sign = '.' ∨ sign = '#') ∧
      ∀ d ∈ c :: cs, isPlain d = true) ∨
    ∃ c cs, word = c :: cs ∧ isLetter c = true ∧ ∀ d ∈ cs, isPlain d = true := by
  unfold isWordText at h
  split at h
  · rw [← List.all_cons, List.all_eq_true] at h
    exact .inl ⟨'.', _, _, rfl, .inl rfl, h⟩
  · rw [← List.all_cons, List.all_eq_true] at h
    exact .inl ⟨'#', _, _, rfl, .inr rfl, h⟩
  · simp only [Bool.and_eq_true, List.all_eq_true] at h
    exact .inr ⟨_, _, rfl, h⟩
  · cases h

theorem isInitial_of_isLetter {c : Char} (hc : isLetter c = true) : isInitial c = true := by
  simp [isInitial, hc]

/-- Whether a word of a selector ends before a text, at a blank or a comma. -/
def EndsWord (rest : List Char) : Prop := ∀ c ∈ rest.head?, c = ' ' ∨ c = '\n' ∨ c = ','

theorem EndsWord.endsName {rest : List Char} (h : EndsWord rest) : EndsName rest := by
  intro c hc
  rcases h c hc with rfl | rfl | rfl <;> decide

theorem selectorTextEnd_nil (n : Nat) : selectorTextEnd n [] = .ok n := by
  rw [selectorTextEnd.eq_def]

theorem selectorTextEnd_stop (n : Nat) {c : Char} {cs : List Char}
    (hends : endsSelectorText c cs = true) : selectorTextEnd n (c :: cs) = .ok n := by
  rw [selectorTextEnd.eq_def]
  exact if_pos hends

theorem selectorTextEnd_cons (n : Nat) {c : Char} {cs : List Char}
    (hends : endsSelectorText c cs = false) (hbracket : c ∉ ['(', '[', ')', ']']) :
    selectorTextEnd n (c :: cs) = selectorTextEnd (n + 1) cs := by
  simp only [List.mem_cons, List.not_mem_nil, or_false, not_or] at hbracket
  rw [selectorTextEnd.eq_def]
  dsimp only
  rw [if_neg (by simp [hends]), if_neg (by simp [hbracket]), if_neg (by simp [hbracket])]

theorem endsSelectorText_of_isPlain {c : Char} (hc : isPlain c = true) (cs : List Char) :
    endsSelectorText c cs = false := by
  have hne : ∀ d ∈ marks, c ≠ d := fun d hd => ne_of_isPlain hc hd
  simp only [marks, List.forall_mem_cons] at hne
  simp [endsSelectorText, isBlank_of_isPlain hc, isQuote, hne]

theorem selectorTextEnd_append (n : Nat) {word rest : List Char}
    (hword : ∀ c ∈ word, isPlain c = true) (hrest : EndsWord rest) :
    selectorTextEnd n (word ++ rest) = .ok (n + word.length) := by
  induction word generalizing n with
  | nil =>
    cases rest with
    | nil => exact selectorTextEnd_nil n
    | cons c cs =>
      have hends : endsSelectorText c cs = true := by
        rcases hrest c rfl with rfl | rfl | rfl <;> simp [endsSelectorText, Text.isBlank]
      exact selectorTextEnd_stop n hends
  | cons c word ih =>
    have hc := hword c List.mem_cons_self
    have hbracket : c ∉ ['(', '[', ')', ']'] := by
      intro h
      have hmarks : ['(', '[', ')', ']'] ⊆ marks := by decide
      exact ne_of_isPlain hc (hmarks h) rfl
    rw [List.cons_append, selectorTextEnd_cons n (endsSelectorText_of_isPlain hc _) hbracket,
      ih (n + 1) fun d hd => hword d (List.mem_cons_of_mem c hd), List.length_cons]
    congr 1
    omega

theorem cut_word {word rest : List Char} (hword : isWordText word = true) (hrest : EndsWord rest) :
    Cut .selector .text word rest := by
  rcases isWordText_cases hword with ⟨sign, c, cs, rfl, hsign, hcs⟩ | ⟨c, cs, rfl, hc, hcs⟩
  · have hc : c ≠ '\x7b' := ne_of_isPlain (hcs c List.mem_cons_self) (by decide)
    have htext := selectorTextEnd_append 1 hcs hrest
    have hstart : selectorTextEnd 0 (sign :: (c :: cs ++ rest)) =
        selectorTextEnd 1 (c :: cs ++ rest) := by
      rcases hsign with rfl | rfl
      · refine selectorTextEnd_cons 0 ?_ (by decide)
        simp [endsSelectorText, isQuote, Text.isBlank]
      · refine selectorTextEnd_cons 0 ?_ (by decide)
        simp [endsSelectorText, isQuote, hc, Text.isBlank]
    rcases hsign with rfl | rfl <;>
    · refine cut_selector (by decide) (by decide) ?_
      rw [selectorLexeme, hstart, htext]
      simp [isQuote, hc, Except.map, Nat.add_comm]
  · have hplain := isPlain_of_isInitial (isInitial_of_isLetter hc)
    have hne : ∀ d ∈ marks, c ≠ d := fun d hd => ne_of_isPlain hplain hd
    simp only [marks, List.forall_mem_cons] at hne
    refine cut_selector (isBlank_of_isPlain hplain) hne.2.2.1 ?_
    have htext := selectorTextEnd_append 0 (List.forall_mem_cons.2 ⟨hplain, hcs⟩) hrest
    rw [List.cons_append] at htext
    rw [selectorLexeme, htext]
    simp [isQuote, hne, Except.map]

/-- The kinds of the tokens that a word of a selector starts with where it is read in a block. -/
def wordKinds : List TokenKind := [.ident, .number, .hash, .delim]

theorem isIdentText_of_isLetter {c : Char} {cs : List Char} (hc : isLetter c = true)
    (hcs : ∀ d ∈ cs, isPlain d = true) : isIdentText (c :: cs) = true := by
  have hinitial := isInitial_of_isLetter hc
  have hminus : c ≠ '-' := by
    rintro rfl
    exact absurd hinitial (by decide)
  rw [isIdentText]
  · simp only [hinitial, Bool.true_and, List.all_eq_true]
    exact hcs
  · rintro d ds rfl
    exact absurd rfl hminus

theorem valueLexeme_hash (signed : Bool) {c : Char} {cs rest : List Char}
    (hcs : ∀ d ∈ c :: cs, isPlain d = true) (hrest : EndsName rest) :
    valueLexeme signed '#' (c :: cs ++ rest) = .ok (.hash, (c :: cs).length + 1) := by
  have hc : c ≠ '\x7b' := ne_of_isPlain (hcs c List.mem_cons_self) (by decide)
  have hlength := nameLength_append 1 hcs hrest
  have hnumber := startsNumber_eq_false (c := '#') (by decide) (by decide) (c :: cs ++ rest)
  have hpair : (c :: cs ++ rest).head?.bind (pair? '#') = none := by
    rw [List.cons_append, List.head?_cons, Option.bind_some, pair?] <;> simp [hc]
  simp only [valueLexeme, hnumber, hpair, hlength]
  simp [isQuote, Nat.add_comm]

-- A point with digits after it starts a number, and stands for itself otherwise. Either way the rule
-- is read again as a selector, so that only the kind of the token matters.
theorem valueLexeme_point (cs : List Char) :
    ∃ kind n, (∀ signed, valueLexeme signed '.' cs = .ok (kind, n + 1)) ∧ n ≤ cs.length ∧
      kind ∈ wordKinds := by
  have hdigits : digitsLength ('.' :: cs) = 0 := by
    rw [digitsLength, List.takeWhile_cons_of_neg (by decide)]
    rfl
  have hlength : numberLength ('.' :: cs) =
      if digitsLength cs = 0 then 0 else 1 + digitsLength cs := by
    rw [numberLength, hdigits, List.drop_zero, fractionLength, Nat.zero_add]
  by_cases hcs : digitsLength cs = 0
  · refine ⟨.delim, 0, fun signed => ?_, Nat.zero_le _, by decide⟩
    have hpair := bind_pair?_eq_none (c := '.') (by decide) cs.head?
    rw [if_pos hcs] at hlength
    simp only [valueLexeme, startsNumber, hlength, hpair]
    simp [isQuote, isIdentStart, isLetter, isAscii, single]
  · refine ⟨.number, digitsLength cs, fun signed => ?_, ?_, by decide⟩
    · rw [if_neg hcs] at hlength
      simp only [valueLexeme, startsNumber, hlength]
      simp [isQuote, Nat.add_comm]
    · exact (List.takeWhile_sublist _).length_le

theorem exists_cut_word {word rest : List Char} (hword : isWordText word = true)
    (hrest : EndsWord rest) :
    ∃ kind head tail, word ++ rest = head ++ tail ∧ Cut .block kind head tail ∧ kind ∈ wordKinds := by
  rcases isWordText_cases hword with ⟨sign, c, cs, rfl, rfl | rfl, hcs⟩ | ⟨c, cs, rfl, hc, hcs⟩
  · obtain ⟨kind, n, hlexeme, hn, hkind⟩ := valueLexeme_point (c :: cs ++ rest)
    refine ⟨kind, '.' :: (c :: cs ++ rest).take n, (c :: cs ++ rest).drop n, ?_, ?_, hkind⟩
    · show '.' :: (c :: cs ++ rest) = '.' :: (_ ++ _)
      rw [List.take_append_drop]
    · refine cut_value (by decide) (by decide) (by decide) fun signed => ?_
      rw [List.take_append_drop, List.length_take, Nat.min_eq_left hn]
      exact hlexeme signed
  · refine ⟨.hash, _, rest, rfl, ?_, by decide⟩
    exact cut_value (by decide) (by decide) (by decide) fun signed =>
      valueLexeme_hash signed hcs hrest.endsName
  · refine ⟨.ident, _, rest, rfl, ?_, by decide⟩
    exact cut_ident (by decide) (isIdentText_of_isLetter hc hcs) hrest.endsName

/-! ## Looking ahead -/

/-- The characters that the look-ahead passes over, whatever comes next. -/
def isQuiet (c : Char) : Bool :=
  c ∉ ['"', '\'', '/', '#', '(', '[', ')', ']', ';', '\x7b', '\x7d']

/-- One character that starts neither a string nor a comment nor an interpolation. -/
theorem itemEndFrom_cons {parens holes : Nat} {c : Char} {cs : List Char}
    (hquote : isQuote c = false) (hslash : c = '/' → cs.head? ≠ some '*')
    (hhash : c = '#' → cs.head? ≠ some '\x7b') :
    itemEndFrom parens holes (c :: cs) =
      if c = '(' ∨ c = '[' then itemEndFrom (parens + 1) holes cs
      else if c = ')' ∨ c = ']' then itemEndFrom (parens - 1) holes cs
      else if c = '\x7d' ∧ 0 < holes then itemEndFrom parens (holes - 1) cs
      else if (c = ';' ∨ c = '\x7b' ∨ c = '\x7d') ∧ parens = 0 then some c
      else itemEndFrom parens holes cs := by
  rw [itemEndFrom]
  · rintro rfl
    cases hquote
  · rintro rfl
    cases hquote
  · rintro tail hc rfl
    exact hslash hc rfl
  · rintro tail hc rfl
    exact hhash hc rfl

theorem itemEndFrom_quiet {parens holes : Nat} {c : Char} (hc : isQuiet c = true)
    (cs : List Char) : itemEndFrom parens holes (c :: cs) = itemEndFrom parens holes cs := by
  simp only [isQuiet, decide_eq_true_eq, List.mem_cons, List.not_mem_nil, or_false, not_or] at hc
  rw [itemEndFrom_cons (by simp [isQuote, hc]) (by simp [hc]) (by simp [hc])]
  simp [hc]

theorem itemEndFrom_hash {parens holes : Nat} {cs : List Char} (hcs : cs.head? ≠ some '\x7b') :
    itemEndFrom parens holes ('#' :: cs) = itemEndFrom parens holes cs := by
  rw [itemEndFrom_cons (by decide) (by simp) fun _ => hcs]
  simp

theorem itemEndFrom_stop {c : Char} (hc : c ∈ [';', '\x7b', '\x7d']) (cs : List Char) :
    itemEndFrom 0 0 (c :: cs) = some c := by
  simp only [List.mem_cons, List.not_mem_nil, or_false] at hc
  rcases hc with rfl | rfl | rfl <;>
  · rw [itemEndFrom_cons (by decide) (by simp) (by simp)]
    simp

/-- The text of an item up to what ends it. -/
structure IsCalm (text : List Char) : Prop where
  quiet : ∀ c ∈ text, isQuiet c = true ∨ c = '#'
  last : text.getLast? ≠ some '#'

theorem itemEnd_append {text : List Char} (htext : IsCalm text) {c : Char}
    (hc : c ∈ [';', '\x7b', '\x7d']) (rest : List Char) : itemEnd (text ++ c :: rest) = some c := by
  obtain ⟨hquiet, hlast⟩ := htext
  rw [itemEnd]
  induction text with
  | nil => exact itemEndFrom_stop hc rest
  | cons d text ih =>
    have hrest := ih (fun e he => hquiet e (List.mem_cons_of_mem d he)) (by
      cases text with
      | nil => simp
      | cons e text => rwa [List.getLast?_cons_cons] at hlast)
    rw [List.cons_append, ← hrest]
    rcases hquiet d List.mem_cons_self with hd | rfl
    · exact itemEndFrom_quiet hd _
    · cases text with
      | nil => simp at hlast
      | cons e text =>
        refine itemEndFrom_hash ?_
        intro he
        cases he
        rcases hquiet _ (List.mem_cons_of_mem _ List.mem_cons_self) with h | h
        · exact absurd h (by decide)
        · exact absurd h (by decide)

end Stylesheet
