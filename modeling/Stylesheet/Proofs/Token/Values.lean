import Stylesheet.Proofs.Token.Cutting
import Stylesheet.Proofs.Token.Grammar

/-!
# Tokens of values

What the tokens of a value look like to a scan that goes on character by character: most of them are
quiet, a few are marks, and some may hold any character at all.

* `ValueToken`: the tokens of a value; `valueLexeme_ok`: every lexeme is one of them.
* `Lexer.next_value`: what a lexer passes for its next token in a value.
-/

namespace Stylesheet

namespace Lexeme

/-- The marks that a scan for the end of an item takes note of. -/
def itemMarks : List Char := ['(', ')', ';', '\x7b', '\x7d', ']']

/-- The kinds of the marks, and of strings. -/
def markKinds : List TokenKind :=
  [.leftParen, .rightParen, .semicolon, .leftBrace, .rightBrace, .interpolation, .str]

/-- A token of a value of some kind, with its text and what stands after it. -/
inductive ValueToken : TokenKind → List Char → List Char → Prop
  | string {quote : Char} {string rest : List Char} (hquote : isQuote quote = true)
      (hstring : Quoted quote string) : ValueToken .str (quote :: string) rest
  /-- Urls and bracketed texts hold what they like. -/
  | block {kind : TokenKind} {text rest : List Char} (hkind : kind = .url ∨ kind = .text) :
      ValueToken kind text rest
  /-- Names, numbers and operators are quiet, unless a name has an escape in it. -/
  | quiet {kind : TokenKind} {text rest : List Char} (hkind : kind ∉ markKinds)
      (htext : '\\' ∈ text ∨ ∀ c ∈ text, isQuiet c = true) : ValueToken kind text rest
  | hash {name rest : List Char} (hname : '\\' ∈ name ∨ ∀ c ∈ name, isQuiet c = true)
      (hnext : (name ++ rest).head? ≠ some '\x7b') : ValueToken .hash ('#' :: name) rest
  | slash {rest : List Char} (hnext : rest.head? ≠ some '*') : ValueToken .slash ['/'] rest
  | interpolation {rest : List Char} : ValueToken .interpolation ['#', '\x7b'] rest
  | mark {c : Char} {rest : List Char} (hc : c ∈ itemMarks) : ValueToken (single c) [c] rest

/-! ## Quiet runs -/

theorem isQuiet_of_forall {p : Char → Bool}
    (hp : ['"', '\'', '/', '#', '(', '[', ')', ']', ';', '\x7b', '\x7d'].any p = false)
    {c : Char} (hc : p c = true) : isQuiet c = true := by
  simp only [isQuiet, decide_eq_true_eq]
  intro hmem
  exact List.any_eq_false.1 hp c hmem hc

theorem isQuiet_of_isNameChar {c : Char} (hc : isNameChar c = true) : isQuiet c = true :=
  isQuiet_of_forall (p := isNameChar) (by decide) hc

theorem isQuiet_of_isBlank {c : Char} (hc : Text.isBlank c = true) : isQuiet c = true :=
  isQuiet_of_forall (p := Text.isBlank) (by decide) hc

/-- A name is quiet, unless it has an escape in it. -/
theorem take_nameLength (n : Nat) (cs : List Char) :
    ∃ k, nameLength n cs = n + k ∧
      ('\\' ∈ cs.take k ∨ ∀ c ∈ cs.take k, isQuiet c = true) := by
  fun_induction nameLength n cs with
  | case1 n => exact ⟨0, rfl, .inr (by simp)⟩
  | case2 n => exact ⟨1, rfl, .inl (by simp)⟩
  | case3 n c cs ih =>
    obtain ⟨k, hk, -⟩ := ih
    exact ⟨k + 2, by omega, .inl (by simp)⟩
  | case4 n c cs _ _ hc ih =>
    obtain ⟨k, hk, hquiet⟩ := ih
    refine ⟨k + 1, by omega, ?_⟩
    rw [List.take_succ_cons]
    rcases hquiet with hescape | hquiet
    · exact .inl (List.mem_cons_of_mem c hescape)
    · exact .inr (List.forall_mem_cons.2 ⟨isQuiet_of_isNameChar hc, hquiet⟩)
  | case5 n c cs _ _ hc => exact ⟨0, rfl, .inr (by simp)⟩

theorem isQuiet_of_isDigit {c : Char} (hc : Decimal.isDigit c = true) : isQuiet c = true :=
  isQuiet_of_isNameChar (by simp [isNameChar, hc])

theorem isQuiet_take_digitsLength (cs : List Char) :
    ∀ c ∈ cs.take (digitsLength cs), isQuiet c = true := by
  have htake : cs.take (digitsLength cs) = cs.takeWhile Decimal.isDigit :=
    (List.prefix_iff_eq_take.1 (List.takeWhile_prefix _)).symm
  rw [htake]
  intro c hc
  exact isQuiet_of_isDigit (List.all_eq_true.1 List.all_takeWhile c hc)

theorem isQuiet_take_fractionLength (cs : List Char) :
    ∀ c ∈ cs.take (fractionLength cs), isQuiet c = true := by
  unfold fractionLength
  split
  · split
    · simp
    · rw [Nat.add_comm, List.take_succ_cons]
      exact List.forall_mem_cons.2 ⟨by decide, isQuiet_take_digitsLength _⟩
  · simp

theorem isQuiet_take_numberLength (cs : List Char) :
    ∀ c ∈ cs.take (numberLength cs), isQuiet c = true := by
  rw [numberLength, List.take_add]
  exact List.forall_mem_append.2
    ⟨isQuiet_take_digitsLength cs, isQuiet_take_fractionLength (cs.drop (digitsLength cs))⟩

/-! ## Lexemes of values -/

/-- A sign and a name. -/
theorem valueToken_name {kind : TokenKind} (hkind : kind ∉ markKinds) {c : Char}
    (hc : isQuiet c = true) (cs : List Char) :
    ValueToken kind ((c :: cs).take (nameLength 1 cs)) ((c :: cs).drop (nameLength 1 cs)) := by
  obtain ⟨k, hk, hname⟩ := take_nameLength 1 cs
  rw [hk, Nat.add_comm]
  refine .quiet hkind ?_
  rw [List.take_succ_cons]
  rcases hname with hescape | hquiet
  · exact .inl (List.mem_cons_of_mem c hescape)
  · exact .inr (List.forall_mem_cons.2 ⟨hc, hquiet⟩)

theorem identLexeme_ok {cs : List Char} {kind : TokenKind} {n : Nat}
    (h : identLexeme cs = .ok (kind, n)) : ValueToken kind (cs.take n) (cs.drop n) := by
  simp only [identLexeme] at h
  split at h
  · obtain ⟨rfl, -⟩ := kind_of_map h
    exact .block (.inl rfl)
  · cases h
    obtain ⟨k, hk, hname⟩ := take_nameLength 0 cs
    rw [Nat.zero_add] at hk
    rw [hk]
    exact .quiet (by decide) hname

theorem pair?_ok {c d : Char} {kind : TokenKind} (h : pair? c d = some kind) (rest : List Char) :
    ValueToken kind [c, d] rest := by
  unfold pair? at h
  split at h
  · cases h
    exact .interpolation
  · cases h
    exact .quiet (by decide) (.inr (List.all_eq_true.1 (by decide)))
  · cases h
    exact .quiet (by decide) (.inr (List.all_eq_true.1 (by decide)))
  · cases h
    exact .quiet (by decide) (.inr (List.all_eq_true.1 (by decide)))
  · cases h
    exact .quiet (by decide) (.inr (List.all_eq_true.1 (by decide)))
  · cases h

theorem single_notMem_markKinds {c : Char} (hc : c ∉ itemMarks) : single c ∉ markKinds := by
  simp only [itemMarks, List.mem_cons, List.not_mem_nil, or_false, not_or] at hc
  unfold single
  split <;> simp_all [markKinds]

theorem single_ok {c : Char} {cs : List Char} (hquote : isQuote c = false) (hhash : c ≠ '#')
    (hbracket : c ≠ '[') (hslash : c = '/' → cs.head? ≠ some '*') :
    ValueToken (single c) [c] cs := by
  by_cases hmark : c ∈ itemMarks
  · exact .mark hmark
  by_cases hc : c = '/'
  · subst hc
    exact .slash (hslash rfl)
  · refine .quiet (single_notMem_markKinds hmark) (.inr (List.forall_mem_singleton.2 ?_))
    simp only [itemMarks, List.mem_cons, List.not_mem_nil, or_false, not_or] at hmark
    simp only [isQuote, Bool.or_eq_false_iff, beq_eq_false_iff_ne] at hquote
    simp [isQuiet, hquote, hhash, hbracket, hc, hmark]

/-- Every lexeme of a value that is not part of a gap is a token of a value. -/
theorem valueLexeme_ok {signed : Bool} {c : Char} {cs : List Char} {kind : TokenKind} {n : Nat}
    (h : valueLexeme signed c cs = .ok (kind, n)) (hgap : ¬ StartsGap true (c :: cs)) :
    ValueToken kind ((c :: cs).take n) ((c :: cs).drop n) := by
  have hslash : ¬ (c = '/' ∧ cs.head? = some '*') := fun hstar => hgap (.inr (.inr ⟨rfl, hstar⟩))
  unfold valueLexeme at h
  rw [if_neg hslash] at h
  split at h
  case isTrue hquote =>
    obtain ⟨rfl, hend⟩ := kind_of_map h
    obtain ⟨string, rest, rfl, rfl, hstring⟩ := stringEnd_ok hend
    rw [Nat.add_comm, List.take_succ_cons, List.drop_succ_cons, List.take_left, List.drop_left]
    exact .string hquote hstring
  rename_i hquote
  split at h
  case isTrue hsign =>
    have hquiet : isQuiet c = true := by
      rcases hsign with rfl | rfl <;> decide
    split at h
    · cases h
      exact .quiet (by decide) (.inr (List.forall_mem_singleton.2 hquiet))
    · cases h
      refine valueToken_name ?_ hquiet cs
      split <;> decide
  split at h
  case isTrue hnumber =>
    cases h
    exact .quiet (by decide) (.inr (isQuiet_take_numberLength (c :: cs)))
  split at h
  case h_1 kind' hpair =>
    cases h
    obtain ⟨d, hd, hpair⟩ := Option.bind_eq_some_iff.1 hpair
    obtain ⟨rest, rfl⟩ := List.head?_eq_some_iff.1 hd
    exact pair?_ok hpair rest
  rename_i hpair
  split at h
  case isTrue hhash =>
    subst hhash
    cases h
    have hbrace : cs.head? ≠ some '\x7b' := fun hhead => hpair .interpolation (by rw [hhead]; rfl)
    obtain ⟨k, hk, hname⟩ := take_nameLength 1 cs
    rw [hk, Nat.add_comm, List.take_succ_cons, List.drop_succ_cons]
    exact .hash hname (by rwa [List.take_append_drop])
  rename_i hhash
  split at h
  case isTrue hminus =>
    cases h
    exact valueToken_name (by decide) (by rw [hminus.1]; decide) cs
  split at h
  case isTrue hminus =>
    cases h
    rw [Nat.add_comm, List.take_succ_cons]
    refine .quiet (by decide) (.inr (List.forall_mem_cons.2 ⟨?_, isQuiet_take_numberLength cs⟩))
    rw [hminus.1]
    decide
  split at h
  case isTrue =>
    obtain ⟨rfl, -⟩ := kind_of_map h
    exact .block (.inr rfl)
  rename_i hbracket
  split at h
  case isTrue hbang =>
    cases h
    exact valueToken_name (by decide) (by rw [hbang.1]; decide) cs
  split at h
  case isTrue => exact identLexeme_ok h
  cases h
  exact single_ok (Bool.eq_false_iff.2 hquote) hhash hbracket fun hc hstar => hslash ⟨hc, hstar⟩

end Lexeme

/-! ## The next token -/

namespace Lexer

open Lexeme

theorem valueToken_unit (cs : List Char) :
    ValueToken .unit (cs.take (unitLength cs)) (cs.drop (unitLength cs)) := by
  rw [unitLength]
  split
  · rename_i hpercent
    obtain ⟨rest, rfl⟩ := List.head?_eq_some_iff.1 hpercent
    exact .quiet (by decide) (.inr (List.forall_mem_singleton.2 (by decide)))
  · obtain ⟨k, hk, hname⟩ := take_nameLength 0 cs
    rw [hk, Nat.zero_add]
    exact .quiet (by decide) hname

/-- In a value a gap and one of the tokens of a value are passed. -/
theorem next_value {l l' : Lexer} {t : Token} (h : l.next = (.ok (some t), l'))
    (hmode : l.mode = .value) :
    ∃ gap, l.rest = gap ++ t.source ∧ t.source = t.text.toList ++ l'.rest ∧
      Trivia true t.source gap ∧ ValueToken t.kind t.text.toList l'.rest ∧ l'.mode = .value := by
  have hsource := (next_emitted h).1.source
  obtain ⟨-, heq⟩ | ⟨-, n, hgap, ⟨-, hnone, -⟩ | ⟨c, cs, kind, k, hrest, hlexeme, heq⟩⟩ :=
    next_ok h
  · cases heq
    refine ⟨[], rfl, hsource, .nil, ?_, hmode⟩
    simpa [emit, skip] using valueToken_unit l.rest
  · cases hnone
  · obtain ⟨gap, rest, hl, hn, htrivia, hend⟩ := gapLength_trivia hgap
    rw [Nat.zero_add] at hn
    subst hn
    have hpass : (l.pass gap.length).rest = rest := by
      show l.rest.drop gap.length = rest
      rw [hl, List.drop_left]
    have hvalue : (l.pass gap.length).mode = .value := hmode
    rw [lexeme, hvalue] at hlexeme
    rw [hmode, ← hpass, hrest] at hend
    rw [hmode, ← hpass] at htrivia
    cases heq
    refine ⟨gap, ?_, hsource, htrivia, ?_, hmode⟩
    · rw [hl, ← hpass]
    · have htoken := valueLexeme_ok hlexeme hend
      rw [← hrest] at htoken
      simpa [emit, skip] using htoken

end Lexer

end Stylesheet
