import Stylesheet.Proofs.Token.Rewinding
import Stylesheet.Proofs.Token.Stream
import Stylesheet.Proofs.Token.Values

/-!
# Text behind a space

The tokens of a text stay the same when a space and more text are put behind it. Only a backslash at
the end is in the way, since it would take the space with it.

* `openEscape`: whether a text ends in such a backslash.
* `valueLexeme_append`: no lexeme grows over a space.
* `Lexer.Apart`: the tokens of a text that has nothing but white space between them;
  `Lexer.apart`: the same, computed.
* `Lexer.Apart.append`: the tokens of a text and those of what is put behind it.
-/

namespace Stylesheet

open Lexeme

/-! ## Escapes -/

/-- Whether the last character is a backslash that nothing comes after. -/
def openEscape : List Char → Bool
  | [] => false
  | ['\\'] => true
  | '\\' :: _ :: cs => openEscape cs
  | _ :: cs => openEscape cs

theorem openEscape_cons {c : Char} (hc : c ≠ '\\') (cs : List Char) :
    openEscape (c :: cs) = openEscape cs := by
  rw [openEscape]
  · intro h
    exact absurd h hc
  · intro d ds h
    exact absurd h hc

/-- Whatever comes before it, a character that is no backslash leaves no escape open. -/
theorem openEscape_append {d : Char} (hd : d ≠ '\\') (text rest : List Char) :
    openEscape (text ++ d :: rest) = openEscape rest := by
  fun_induction openEscape text with
  | case1 => exact openEscape_cons hd rest
  | case2 => rfl
  | case3 c cs ih => exact ih
  | case4 c cs hlast hescape ih =>
    by_cases hc : c = '\\'
    · cases cs with
      | nil => exact absurd rfl (hlast hc)
      | cons e es => exact (hescape e es hc rfl).elim
    · rw [List.cons_append, openEscape_cons hc, ih]

theorem openEscape_drop {cs : List Char} {k : Nat} (h : '\\' ∉ cs.take k) :
    openEscape (cs.drop k) = openEscape cs := by
  induction k generalizing cs with
  | zero => rfl
  | succ k ih =>
    cases cs with
    | nil => rfl
    | cons c cs =>
      rw [List.take_succ_cons, List.mem_cons, not_or] at h
      rw [List.drop_succ_cons, ih h.2, openEscape_cons (Ne.symm h.1)]

/-- The first `n` characters of a text, with no part of an escape behind them. -/
structure Whole (cs : List Char) (n : Nat) : Prop where
  le : n ≤ cs.length
  closed : openEscape (cs.drop n) = false

theorem whole_append {rest : List Char} (text : List Char) (h : openEscape rest = false) :
    Whole (text ++ rest) text.length :=
  ⟨by simp, by rwa [List.drop_left]⟩

theorem whole_succ {c : Char} {cs : List Char} {n : Nat} (h : Whole cs n) :
    Whole (c :: cs) (n + 1) :=
  ⟨Nat.succ_le_succ h.le, h.closed⟩

/-! ## Scans -/

section Scans

variable {cs : List Char} (u : List Char)

theorem head?_append_space {d : Char} (hd : d ≠ ' ') :
    (cs ++ ' ' :: u).head? = some d ↔ cs.head? = some d := by
  cases cs <;> simp [hd.symm]

theorem any_head?_append_space {p : Char → Bool} (hp : p ' ' = false) :
    (cs ++ ' ' :: u).head?.any p = cs.head?.any p := by
  cases cs <;> simp [hp]

theorem pair?_append_space (c : Char) :
    (cs ++ ' ' :: u).head?.bind (pair? c) = cs.head?.bind (pair? c) := by
  cases cs with
  | nil =>
    show pair? c ' ' = none
    rw [pair?] <;> simp
  | cons d cs => rfl

/-- A name takes its escapes whole, and ends before a mark. -/
theorem nameLength_append_mark {d : Char} (hd : isNameChar d = false) (hescape : d ≠ '\\')
    (h : openEscape cs = false) :
    ∃ name rest, cs = name ++ rest ∧ openEscape rest = false ∧
      ∀ n, nameLength n cs = n + name.length ∧ nameLength n (cs ++ d :: u) = n + name.length := by
  fun_induction openEscape cs with
  | case1 =>
    refine ⟨[], [], rfl, h, fun n => ⟨rfl, ?_⟩⟩
    rw [List.nil_append, nameLength_cons n hescape, hd]
    rfl
  | case2 => cases h
  | case3 c cs ih =>
    obtain ⟨name, rest, rfl, hrest, hname⟩ := ih h
    refine ⟨'\\' :: c :: name, rest, rfl, hrest, fun n => ?_⟩
    have hlength : n + ('\\' :: c :: name).length = n + 2 + name.length := by
      simp only [List.length_cons]
      omega
    rw [hlength]
    exact hname (n + 2)
  | case4 c cs hlast hpair ih =>
    have hc : c ≠ '\\' := by
      rintro rfl
      cases cs with
      | nil => exact hlast rfl rfl
      | cons d ds => exact hpair d ds rfl rfl
    by_cases hchar : isNameChar c = true
    · obtain ⟨name, rest, rfl, hrest, hname⟩ := ih h
      refine ⟨c :: name, rest, rfl, hrest, fun n => ?_⟩
      have hlength : n + (c :: name).length = n + 1 + name.length := by
        simp only [List.length_cons]
        omega
      rw [hlength, List.cons_append, nameLength_cons n hc, nameLength_cons n hc, if_pos hchar,
        if_pos hchar]
      exact hname (n + 1)
    · refine ⟨[], c :: cs, rfl, (openEscape_cons hc cs).trans h, fun n => ?_⟩
      rw [List.cons_append, nameLength_cons n hc, nameLength_cons n hc, if_neg hchar,
        if_neg hchar]
      exact ⟨rfl, rfl⟩

theorem nameLength_append_space (h : openEscape cs = false) :
    ∃ name rest, cs = name ++ rest ∧ openEscape rest = false ∧
      ∀ n, nameLength n cs = n + name.length ∧ nameLength n (cs ++ ' ' :: u) = n + name.length :=
  nameLength_append_mark u (by decide) (by decide) h

theorem digitsLength_append_space : digitsLength (cs ++ ' ' :: u) = digitsLength cs := by
  induction cs with
  | nil => rfl
  | cons c cs ih =>
    by_cases hc : Decimal.isDigit c = true
    · simp only [digitsLength, List.cons_append, List.takeWhile_cons_of_pos hc, List.length_cons]
      exact congrArg (· + 1) ih
    · simp only [digitsLength, List.cons_append, List.takeWhile_cons_of_neg hc]

theorem fractionLength_append_space : fractionLength (cs ++ ' ' :: u) = fractionLength cs := by
  cases cs with
  | nil => rfl
  | cons c cs =>
    by_cases hc : c = '.'
    · subst hc
      rw [List.cons_append, fractionLength, fractionLength, digitsLength_append_space]
    · rw [List.cons_append, fractionLength, fractionLength]
      · rintro ds ⟨⟩
        exact hc rfl
      · rintro ds ⟨⟩
        exact hc rfl

theorem digitsLength_le (cs : List Char) : digitsLength cs ≤ cs.length :=
  (List.takeWhile_sublist _).length_le

theorem numberLength_append_space : numberLength (cs ++ ' ' :: u) = numberLength cs := by
  rw [numberLength, numberLength, digitsLength_append_space,
    List.drop_append_of_le_length (digitsLength_le cs), fractionLength_append_space]

theorem startsNumber_append_space : startsNumber (cs ++ ' ' :: u) = startsNumber cs := by
  rw [startsNumber, startsNumber, numberLength_append_space]

theorem whole_digitsLength (h : openEscape cs = false) : Whole cs (digitsLength cs) := by
  have htake : cs.take (digitsLength cs) = cs.takeWhile Decimal.isDigit :=
    (List.prefix_iff_eq_take.1 (List.takeWhile_prefix _)).symm
  refine ⟨digitsLength_le cs, (openEscape_drop fun hmem => ?_).trans h⟩
  rw [htake] at hmem
  exact absurd (List.all_eq_true.1 List.all_takeWhile _ hmem) (by decide)

theorem whole_fractionLength (h : openEscape cs = false) : Whole cs (fractionLength cs) := by
  unfold fractionLength
  split
  · split
    · exact ⟨Nat.zero_le _, h⟩
    · rw [openEscape_cons (by decide)] at h
      rw [Nat.add_comm]
      exact whole_succ (whole_digitsLength h)
  · exact ⟨Nat.zero_le _, h⟩

theorem whole_numberLength (h : openEscape cs = false) : Whole cs (numberLength cs) := by
  obtain ⟨hdigits, hbehind⟩ := whole_digitsLength h
  obtain ⟨hfraction, hclosed⟩ := whole_fractionLength hbehind
  rw [List.length_drop] at hfraction
  rw [List.drop_drop] at hclosed
  exact ⟨by rw [numberLength]; omega, hclosed⟩

theorem unitLength_append_space (h : openEscape cs = false) :
    unitLength (cs ++ ' ' :: u) = unitLength cs ∧ Whole cs (unitLength cs) := by
  by_cases hpercent : cs.head? = some '%'
  · obtain ⟨ds, rfl⟩ := List.head?_eq_some_iff.1 hpercent
    exact ⟨rfl, by simp [unitLength], (openEscape_cons (by decide) ds).symm.trans h⟩
  · have happend := mt (head?_append_space u (by decide)).1 hpercent
    obtain ⟨name, rest, rfl, hrest, hname⟩ := nameLength_append_space u h
    obtain ⟨hlength, hspace⟩ := hname 0
    rw [unitLength, unitLength, if_neg hpercent, if_neg happend, hlength, hspace, Nat.zero_add]
    exact ⟨rfl, whole_append name hrest⟩

theorem startsUnit_append_space : startsUnit (cs ++ ' ' :: u) = startsUnit cs := by
  cases cs <;> rfl

end Scans

/-! ### Scans up to a mark

Such a scan stops behind the mark, whatever comes after it. -/

theorem drop_behind (n : Nat) (text : List Char) (d : Char) (rest : List Char) :
    (text ++ d :: rest).drop (n + text.length + 1 - n) = rest := by
  rw [show n + text.length + 1 - n = text.length + 1 by omega]
  simp

theorem stringEnd_stops {quote : Char} (hquote : isQuote quote = true) {start n m : Nat}
    {cs : List Char} (h : stringEnd quote start n cs = .ok m) :
    ∃ text rest, cs = text ++ quote :: rest ∧ m = n + text.length + 1 ∧
      ∀ rest', stringEnd quote start n (text ++ quote :: rest') = .ok m := by
  have hmark : quote ≠ '\\' ∧ quote ≠ '\n' := by
    constructor <;> (rintro rfl; exact absurd hquote (by decide))
  fun_induction stringEnd quote start n cs with
  | case1 => cases h
  | case2 => cases h
  | case3 => cases h
  | case4 n c cs ih =>
    obtain ⟨text, rest, rfl, rfl, hstops⟩ := ih h
    exact ⟨'\\' :: c :: text, rest, rfl, by simp; omega, hstops⟩
  | case5 n cs =>
    cases h
    refine ⟨[], cs, rfl, rfl, fun rest' => ?_⟩
    rw [List.nil_append, stringEnd, if_pos rfl]
    · exact hmark.2
    · intro hc
      exact absurd hc hmark.1
    · intro d ds hc
      exact absurd hc hmark.1
  | case6 n c cs hline hlast hescape hc ih =>
    obtain ⟨text, rest, rfl, rfl, hstops⟩ := ih h
    have hslash : c ≠ '\\' := by
      intro hslash
      cases text with
      | nil => exact hescape _ _ hslash rfl
      | cons d ds => exact hescape _ _ hslash rfl
    refine ⟨c :: text, rest, rfl, by simp; omega, fun rest' => ?_⟩
    rw [List.cons_append, stringEnd, if_neg hc, hstops]
    · exact hline
    · intro hc
      exact absurd hc hslash
    · intro d ds hc
      exact absurd hc hslash

theorem bracketEnd_stops {opening closing : Char} {start depth n m : Nat} {cs : List Char}
    (h : bracketEnd opening closing start depth n cs = .ok m) :
    ∃ text rest, cs = text ++ closing :: rest ∧ m = n + text.length + 1 ∧
      ∀ rest', bracketEnd opening closing start depth n (text ++ closing :: rest') = .ok m := by
  fun_induction bracketEnd opening closing start depth n cs with
  | case1 => cases h
  | case2 => cases h
  | case3 depth n quote cs hquote k hstring ih =>
    obtain ⟨string, rest, rfl, rfl, hend⟩ := stringEnd_stops hquote hstring
    rw [drop_behind] at ih h
    obtain ⟨text, rest, rfl, rfl, hstops⟩ := ih h
    refine ⟨quote :: (string ++ quote :: text), rest, by simp, by simp; omega, fun rest' => ?_⟩
    have hshape : quote :: (string ++ quote :: text) ++ closing :: rest' =
        quote :: (string ++ quote :: (text ++ closing :: rest')) := by simp
    rw [hshape, bracketEnd, if_pos hquote, hend]
    dsimp only
    rw [drop_behind, hstops]
  | case4 depth n cs hquote ih =>
    obtain ⟨text, rest, rfl, rfl, hstops⟩ := ih h
    refine ⟨opening :: text, rest, rfl, by simp; omega, fun rest' => ?_⟩
    rw [List.cons_append, bracketEnd, if_neg hquote, if_pos rfl, hstops]
  | case5 depth n cs hdepth hquote hopening =>
    cases h
    refine ⟨[], cs, rfl, rfl, fun rest' => ?_⟩
    rw [List.nil_append, bracketEnd, if_neg hquote, if_neg hopening, if_pos rfl, if_pos hdepth]
  | case6 depth n cs hdepth hquote hopening ih =>
    obtain ⟨text, rest, rfl, rfl, hstops⟩ := ih h
    refine ⟨closing :: text, rest, rfl, by simp; omega, fun rest' => ?_⟩
    rw [List.cons_append, bracketEnd, if_neg hquote, if_neg hopening, if_pos rfl, if_neg hdepth,
      hstops]
  | case7 depth n c cs hquote hopening hclosing ih =>
    obtain ⟨text, rest, rfl, rfl, hstops⟩ := ih h
    refine ⟨c :: text, rest, rfl, by simp; omega, fun rest' => ?_⟩
    rw [List.cons_append, bracketEnd, if_neg hquote, if_neg hopening, if_neg hclosing, hstops]

theorem urlEnd_stops {start n m : Nat} {cs : List Char} (h : urlEnd start n cs = .ok m) :
    ∃ text rest, cs = text ++ ')' :: rest ∧ m = n + text.length + 1 ∧
      ∀ rest', urlEnd start n (text ++ ')' :: rest') = .ok m := by
  fun_induction urlEnd start n cs with
  | case1 => cases h
  | case2 => cases h
  | case3 n quote cs hquote k hstring ih =>
    obtain ⟨string, rest, rfl, rfl, hend⟩ := stringEnd_stops hquote hstring
    rw [drop_behind] at ih h
    obtain ⟨text, rest, rfl, rfl, hstops⟩ := ih h
    refine ⟨quote :: (string ++ quote :: text), rest, by simp, by simp; omega, fun rest' => ?_⟩
    have hshape : quote :: (string ++ quote :: text) ++ ')' :: rest' =
        quote :: (string ++ quote :: (text ++ ')' :: rest')) := by simp
    rw [hshape, urlEnd, if_pos hquote, hend]
    dsimp only
    rw [drop_behind, hstops]
  | case4 n cs hquote =>
    cases h
    refine ⟨[], cs, rfl, rfl, fun rest' => ?_⟩
    rw [List.nil_append, urlEnd, if_neg hquote, if_pos rfl]
  | case5 n c cs hquote hc ih =>
    obtain ⟨text, rest, rfl, rfl, hstops⟩ := ih h
    refine ⟨c :: text, rest, rfl, by simp; omega, fun rest' => ?_⟩
    rw [List.cons_append, urlEnd, if_neg hquote, if_neg hc, hstops]

/-! ## Lexemes -/

section Lexemes

variable {signed : Bool} {c : Char} {cs : List Char} {kind : TokenKind} {n : Nat}

theorem identLexeme_append_space (h : identLexeme cs = .ok (kind, n))
    (hclosed : openEscape cs = false) (u : List Char) :
    identLexeme (cs ++ ' ' :: u) = .ok (kind, n) ∧ Whole cs n := by
  obtain ⟨name, rest, rfl, hrest, hname⟩ := nameLength_append_space u hclosed
  obtain ⟨hlength, hspace⟩ := hname 0
  rw [Nat.zero_add] at hlength hspace
  rw [List.append_assoc] at hspace ⊢
  simp only [identLexeme, hlength, List.take_left, List.drop_left] at h
  simp only [identLexeme, hspace, List.take_left, List.drop_left,
    head?_append_space u (show '(' ≠ ' ' by decide)]
  split at h
  case isTrue hurl =>
    obtain ⟨tail, rfl⟩ := List.head?_eq_some_iff.1 hurl.2
    obtain ⟨rfl, hend⟩ := kind_of_map h
    obtain ⟨text, tail, rfl, rfl, hstops⟩ := urlEnd_stops hend
    have hshape : ('(' :: (text ++ ')' :: tail) ++ ' ' :: u).drop 1 =
        text ++ ')' :: (tail ++ ' ' :: u) := by simp
    rw [if_pos hurl, hshape, hstops]
    refine ⟨rfl, ?_⟩
    have hsplit : name ++ '(' :: (text ++ ')' :: tail) = name ++ '(' :: text ++ [')'] ++ tail := by
      simp
    have hlength : name.length + 1 + text.length + 1 = (name ++ '(' :: text ++ [')']).length := by
      simp only [List.length_append, List.length_cons, List.length_nil]
      omega
    rw [← List.cons_append, openEscape_append (by decide)] at hrest
    rw [hsplit, hlength]
    exact whole_append _ hrest
  case isFalse hident =>
    cases h
    rw [if_neg hident]
    exact ⟨rfl, whole_append name hrest⟩

theorem pair?_ne_escape {c d : Char} (h : pair? c d = some kind) : c ≠ '\\' ∧ d ≠ '\\' := by
  unfold pair? at h
  split at h
  case h_6 => cases h
  all_goals decide

/-- A sign and a name behind it. -/
theorem nameLength_sign_append (hc : c ≠ '\\') (hclosed : openEscape (c :: cs) = false)
    (u : List Char) :
    nameLength 1 (cs ++ ' ' :: u) = nameLength 1 cs ∧ Whole (c :: cs) (nameLength 1 cs) := by
  rw [openEscape_cons hc] at hclosed
  obtain ⟨name, rest, rfl, hrest, hname⟩ := nameLength_append_space u hclosed
  rw [(hname 1).1, (hname 1).2, Nat.add_comm]
  exact ⟨rfl, whole_succ (whole_append name hrest)⟩

/-- A character and a scan behind it, up to the mark `d`. -/
theorem whole_scan {d : Char} (hd : d ≠ '\\') {text rest : List Char}
    (hclosed : openEscape (c :: (text ++ d :: rest)) = false) :
    Whole (c :: (text ++ d :: rest)) (1 + text.length + 1) := by
  rw [← List.cons_append, openEscape_append hd] at hclosed
  have hsplit : c :: (text ++ d :: rest) = c :: text ++ [d] ++ rest := by simp
  have hlength : 1 + text.length + 1 = (c :: text ++ [d]).length := by
    simp only [List.length_append, List.length_cons, List.length_nil]
    omega
  rw [hsplit, hlength]
  exact whole_append _ hclosed

/-- No lexeme of a value grows over a space that is put behind the text, and none of them leaves a
part of an escape behind it. -/
theorem valueLexeme_append (h : valueLexeme signed c cs = .ok (kind, n))
    (hgap : ¬ StartsGap true (c :: cs)) (hclosed : openEscape (c :: cs) = false) (u : List Char) :
    valueLexeme signed c (cs ++ ' ' :: u) = .ok (kind, n) ∧ Whole (c :: cs) n := by
  have hslash : ¬ (c = '/' ∧ cs.head? = some '*') := fun hstar => hgap (.inr (.inr ⟨rfl, hstar⟩))
  have hnumber : numberLength (c :: cs ++ ' ' :: u) = numberLength (c :: cs) :=
    numberLength_append_space u
  have hstarts : startsNumber (c :: cs ++ ' ' :: u) = startsNumber (c :: cs) :=
    startsNumber_append_space u
  rw [List.cons_append] at hnumber hstarts
  -- The conditions that choose the lexeme see one more character at most, which is no space.
  simp only [valueLexeme, hnumber, hstarts, numberLength_append_space, startsNumber_append_space,
    pair?_append_space, head?_append_space u (show '*' ≠ ' ' by decide), if_neg hslash,
    any_head?_append_space (p := fun d => isIdentStart d || d == '-') u (by decide),
    any_head?_append_space (p := isIdentStart) u (by decide)]
  simp only [valueLexeme, if_neg hslash] at h
  split at h
  case isTrue hquote =>
    rw [if_pos hquote]
    obtain ⟨rfl, hend⟩ := kind_of_map h
    obtain ⟨text, rest, rfl, rfl, hstops⟩ := stringEnd_stops hquote hend
    have hc : c ≠ '\\' := by
      rintro rfl
      exact absurd hquote (by decide)
    refine ⟨?_, whole_scan hc hclosed⟩
    rw [List.append_assoc, List.cons_append, hstops]
    rfl
  rename_i hquote
  rw [if_neg hquote]
  split at h
  case isTrue hsign =>
    rw [if_pos hsign]
    have hc : c ≠ '\\' := by
      rcases hsign with rfl | rfl <;> decide
    have hcs := hclosed
    rw [openEscape_cons hc] at hcs
    obtain ⟨name, rest, -, -, hlength⟩ := nameLength_append_space u hcs
    rw [(hlength 0).2, ← (hlength 0).1]
    split at h
    case isTrue hzero =>
      cases h
      exact ⟨if_pos hzero, whole_append [c] hcs⟩
    case isFalse hzero =>
      cases h
      obtain ⟨hspace, hwhole⟩ := nameLength_sign_append hc hclosed u
      rw [if_neg hzero, hspace]
      exact ⟨rfl, hwhole⟩
  rename_i hsign
  rw [if_neg hsign]
  split at h
  case isTrue hdigit =>
    rw [if_pos hdigit]
    cases h
    exact ⟨rfl, whole_numberLength hclosed⟩
  rename_i hdigit
  rw [if_neg hdigit]
  split at h
  · rename_i hpair
    cases h
    obtain ⟨d, hd, hkind⟩ := Option.bind_eq_some_iff.1 hpair
    obtain ⟨ds, rfl⟩ := List.head?_eq_some_iff.1 hd
    obtain ⟨hc, hd⟩ := pair?_ne_escape hkind
    rw [openEscape_cons hc, openEscape_cons hd] at hclosed
    exact ⟨rfl, whole_append [c, d] hclosed⟩
  split at h
  case isTrue hhash =>
    rw [if_pos hhash]
    cases h
    obtain ⟨hspace, hwhole⟩ := nameLength_sign_append (by rw [hhash]; decide) hclosed u
    rw [hspace]
    exact ⟨rfl, hwhole⟩
  rename_i hhash
  rw [if_neg hhash]
  split at h
  case isTrue hminus =>
    rw [if_pos hminus]
    cases h
    obtain ⟨hspace, hwhole⟩ := nameLength_sign_append (by rw [hminus.1]; decide) hclosed u
    rw [hspace]
    exact ⟨rfl, hwhole⟩
  rename_i hminus
  rw [if_neg hminus]
  split at h
  case isTrue hsigned =>
    rw [if_pos hsigned]
    cases h
    obtain ⟨rfl, -, -⟩ := hsigned
    rw [openEscape_cons (by decide)] at hclosed
    rw [Nat.add_comm]
    exact ⟨rfl, whole_succ (whole_numberLength hclosed)⟩
  rename_i hsigned
  rw [if_neg hsigned]
  split at h
  case isTrue hbracket =>
    rw [if_pos hbracket]
    obtain ⟨rfl, hend⟩ := kind_of_map h
    obtain ⟨text, rest, rfl, rfl, hstops⟩ := bracketEnd_stops hend
    refine ⟨?_, whole_scan (by decide) hclosed⟩
    rw [List.append_assoc, List.cons_append, hstops]
    rfl
  rename_i hbracket
  rw [if_neg hbracket]
  split at h
  case isTrue hmark =>
    rw [if_pos hmark]
    cases h
    obtain ⟨hspace, hwhole⟩ := nameLength_sign_append (by rw [hmark.1]; decide) hclosed u
    rw [hspace]
    exact ⟨rfl, hwhole⟩
  rename_i hmark
  rw [if_neg hmark]
  split at h
  case isTrue hident =>
    rw [if_pos hident]
    exact identLexeme_append_space h hclosed u
  case isFalse hident =>
    rw [if_neg hident]
    cases h
    have hc : c ≠ '\\' := by
      rintro rfl
      exact hident (by decide)
    rw [openEscape_cons hc] at hclosed
    exact ⟨rfl, whole_append [c] hclosed⟩

end Lexemes

/-! ## Lexers -/

deriving instance DecidableEq for Spelling

def IsBlank (gap : List Char) : Prop := ∀ c ∈ gap, Text.isBlank c = true

theorem gapLength_blank (comments : Bool) (n : Nat) {gap rest : List Char} (hgap : IsBlank gap)
    (hrest : ¬ StartsGap comments rest) :
    gapLength comments n (gap ++ rest) = .ok (n + gap.length) := by
  induction gap generalizing n with
  | nil => exact gapLength_of_not_startsGap hrest n
  | cons c gap ih =>
    obtain ⟨hc, hgap⟩ := List.forall_mem_cons.1 hgap
    rw [List.cons_append, gapLength, if_pos hc, ih (n + 1) hgap, List.length_cons]
    congr 1
    omega

theorem not_startsGap_append {cs : List Char} (hne : cs ≠ []) (h : ¬ StartsGap true cs)
    (u : List Char) : ¬ StartsGap true (cs ++ ' ' :: u) := by
  cases cs with
  | nil => exact absurd rfl hne
  | cons c cs =>
    intro hgap
    refine h ?_
    simp only [StartsGap, List.cons_append, head?_append_space u (show '/' ≠ ' ' by decide),
      head?_append_space u (show '*' ≠ ' ' by decide)] at hgap ⊢
    exact hgap

theorem openEscape_blank {gap : List Char} (hgap : IsBlank gap) (rest : List Char) :
    openEscape (gap ++ rest) = openEscape rest := by
  have hescape : '\\' ∉ (gap ++ rest).take gap.length := by
    rw [List.take_left]
    intro hmem
    exact absurd (hgap _ hmem) (by decide)
  rw [← openEscape_drop hescape, List.drop_left]

namespace Lexer

/-- The tokens of a value to the end of the text, with nothing but white space before each of them
and at the end. -/
inductive Apart : Lexer → List Spelling → Prop
  | nil {l : Lexer} (hmode : l.mode = .value) (hunit : l.unitDue = false) (hrest : IsBlank l.rest) :
      Apart l []
  | cons {l l' : Lexer} {t : Token} {gap : List Char} {ps : List Spelling} (hmode : l.mode = .value)
      (hnext : l.next = (.ok (some t), l')) (hsource : l.rest = gap ++ t.source)
      (hgap : IsBlank gap) (hrest : Apart l' ps) : Apart l (t.spelling :: ps)

/-- The tokens of a text if nothing but white space is between them; at most `n` of them. -/
def apart : Nat → Lexer → Option (List Spelling)
  | 0, _ => none
  | n + 1, l =>
    match l.next with
    | (.error _, _) => none
    | (.ok none, _) => if l.rest.all Text.isBlank then some [] else none
    | (.ok (some t), l') =>
      if (l.rest.take (l.rest.length - t.source.length)).all Text.isBlank then
        (apart n l').map (t.spelling :: ·)
      else none

theorem apart_of_apart {n : Nat} {l : Lexer} {ps : List Spelling} (hmode : l.mode = .value)
    (h : l.apart n = some ps) : l.Apart ps := by
  induction n generalizing l ps with
  | zero => cases h
  | succ n ih =>
    rw [apart] at h
    split at h
    · cases h
    · rename_i hnext
      split at h
      · rename_i hblank
        cases h
        obtain ⟨-, heq⟩ | ⟨hunit, -⟩ := next_ok hnext
        · cases heq
        · exact .nil hmode hunit (List.all_eq_true.1 hblank)
      · cases h
    · rename_i t l' hnext
      split at h
      · rename_i hblank
        obtain ⟨more, hmore, rfl⟩ := Option.map_eq_some_iff.1 h
        obtain ⟨gap, hrest, hsource, -, -, hmode'⟩ := next_value hnext hmode
        have hgap : l.rest.take (l.rest.length - t.source.length) = gap := by
          rw [hrest, List.length_append, Nat.add_sub_cancel, List.take_left]
        rw [hgap] at hblank
        exact .cons hmode hnext hrest (List.all_eq_true.1 hblank) (ih hmode' hmore)
      · cases h

/-- A token that is no number, and the tokens after it. -/
theorem apart_of_lexeme {l : Lexer} {gap word rest : List Char} {c : Char} {kind : TokenKind}
    {ps : List Spelling} (hmode : l.mode = .value) (hunit : l.unitDue = false)
    (hrest : l.rest = gap ++ c :: (word ++ rest)) (hgap : IsBlank gap)
    (hstart : ¬ StartsGap true (c :: (word ++ rest)))
    (hlexeme : ∀ signed, valueLexeme signed c (word ++ rest) = .ok (kind, word.length + 1))
    (hkind : kind ≠ .number)
    (hmore : ∀ l' : Lexer, l'.mode = .value → l'.unitDue = false → l'.spaceDue = false →
      l'.rest = rest → l'.Apart ps) :
    l.Apart (⟨kind, String.ofList (c :: word), l.spaceDue || !gap.isEmpty⟩ :: ps) := by
  have hlength : gapLength (l.mode != .block) 0 l.rest = .ok gap.length := by
    rw [hrest, hmode, ← Nat.zero_add gap.length]
    exact gapLength_blank _ 0 hgap hstart
  have hpass : (l.pass gap.length).rest = c :: (word ++ rest) := by
    show l.rest.drop gap.length = _
    rw [hrest, List.drop_left]
  have hvalue : (l.pass gap.length).mode = .value := hmode
  have hnext := next_of_lexeme hunit hlength hpass
    (by rw [lexeme, hvalue]; exact hlexeme _)
  generalize hspaced : (l.spaceDue || gap.length != 0) = spaced at hnext
  have hspelling : ((l.pass gap.length).emit kind (word.length + 1) spaced).1.spelling =
      ⟨kind, String.ofList (c :: word), l.spaceDue || !gap.isEmpty⟩ := by
    have hempty : (gap.length != 0) = !gap.isEmpty := by cases gap <;> rfl
    rw [hempty] at hspaced
    simp [emit, Token.spelling, hpass, hspaced]
  rw [← hspelling]
  refine .cons hmode hnext (hrest.trans (congrArg (gap ++ ·) hpass.symm)) hgap
    (hmore _ hmode ?_ rfl ?_)
  · simp [emit, hkind]
  · show (l.pass gap.length).rest.drop (word.length + 1) = rest
    rw [hpass, List.drop_succ_cons, List.drop_left]

/-- `m` is like `l`, but it has the blanks `gap` before its text, and a space and `u` behind it.
Only a lexer that has given no token yet may have blanks before its text. -/
structure Widened (l m : Lexer) (gap u : List Char) : Prop where
  rest : m.rest = gap ++ (l.rest ++ ' ' :: u)
  blank : IsBlank gap
  mode : m.mode = .value
  unitDue : m.unitDue = l.unitDue
  last : gap = [] ∧ m.last = l.last ∧ m.spaceDue = l.spaceDue ∨
    gap ≠ [] ∧ l.last = none ∧ l.unitDue = false

variable {l l' m : Lexer} {t : Token} {before gap u : List Char}

/-- The minus is a sign to one of the two lexers if it is to the other. -/
theorem Widened.signed_eq (h : l.Widened m before u) (n : Nat) :
    (m.spaceDue || before.length + n != 0 || !m.last.any TokenKind.isOperand) =
      (l.spaceDue || n != 0 || !l.last.any TokenKind.isOperand) := by
  obtain ⟨rfl, hlast, hspace⟩ | ⟨hne, hlast, -⟩ := h.last
  · rw [hspace, hlast, List.length_nil, Nat.zero_add]
  · simp [hlast, hne]

/-- The same characters, taken as a token by both lexers. -/
theorem widened_emit (hrest : m.rest = l.rest ++ ' ' :: u) (hmode : m.mode = .value)
    (hspace : m.spaceDue = l.spaceDue) {n : Nat} (hwhole : Whole l.rest n) (kind : TokenKind)
    (spaced spaced' : Bool) :
    (l.emit kind n spaced).2.Widened (m.emit kind n spaced').2 [] u ∧
      (m.emit kind n spaced').1.text = (l.emit kind n spaced).1.text := by
  have hdrop : m.rest.drop n = l.rest.drop n ++ ' ' :: u := by
    rw [hrest, List.drop_append_of_le_length hwhole.le]
  refine ⟨⟨hdrop, by simp [IsBlank], hmode, ?_, .inl ⟨rfl, rfl, hspace⟩⟩, ?_⟩
  · show (kind == .number && startsUnit (m.rest.drop n)) =
      (kind == .number && startsUnit (l.rest.drop n))
    rw [hdrop, startsUnit_append_space]
  · simp [emit, hrest, List.take_append_of_le_length hwhole.le]

theorem Widened.next_unit (h : l.Widened m before u) (hunit : l.unitDue = true)
    (hclosed : openEscape l.rest = false) :
    before = [] ∧ m.rest = l.rest ++ ' ' :: u ∧ m.spaceDue = l.spaceDue ∧
      Whole l.rest (unitLength l.rest) ∧
      m.next = (.ok (some (m.emit .unit (unitLength l.rest) false).1),
        (m.emit .unit (unitLength l.rest) false).2) := by
  obtain ⟨rfl, -, hspace⟩ | ⟨-, -, hfalse⟩ := h.last
  · have hrest : m.rest = l.rest ++ ' ' :: u := h.rest
    obtain ⟨hlength, hwhole⟩ := unitLength_append_space u hclosed
    refine ⟨rfl, hrest, hspace, hwhole, ?_⟩
    unfold Lexer.next
    rw [h.unitDue, hunit, if_pos rfl, hrest, hlength]
  · rw [hunit] at hfalse
    cases hfalse

theorem Widened.next_token (h : l.Widened m before u) (hmode : l.mode = .value)
    (hunit : l.unitDue = false) {c : Char} {cs : List Char} (hrest : l.rest = gap ++ c :: cs)
    (hgap : IsBlank gap) (hend : ¬ StartsGap true (c :: cs))
    (hclosed : openEscape (c :: cs) = false) {kind : TokenKind} {k : Nat}
    (hlexeme : (l.pass gap.length).lexeme (l.spaceDue || gap.length != 0) c cs = .ok (kind, k)) :
    (m.pass (before ++ gap).length).rest = c :: cs ++ ' ' :: u ∧ Whole (c :: cs) k ∧
      m.next = (.ok (some ((m.pass (before ++ gap).length).emit kind k
          (m.spaceDue || (before ++ gap).length != 0)).1),
        ((m.pass (before ++ gap).length).emit kind k
          (m.spaceDue || (before ++ gap).length != 0)).2) := by
  have hm : m.rest = (before ++ gap) ++ (c :: cs ++ ' ' :: u) := by
    rw [h.rest, hrest]
    simp
  have hpass : (m.pass (before ++ gap).length).rest = c :: cs ++ ' ' :: u := by
    show m.rest.drop (before ++ gap).length = _
    rw [hm, List.drop_left]
  have hlength : gapLength (m.mode != .block) 0 m.rest = .ok (before ++ gap).length := by
    rw [hm, h.mode, ← Nat.zero_add (before ++ gap).length]
    exact gapLength_blank _ 0 (List.forall_mem_append.2 ⟨h.blank, hgap⟩)
      (not_startsGap_append (List.cons_ne_nil c cs) hend u)
  have hl : (l.pass gap.length).mode = .value := hmode
  rw [lexeme, hl] at hlexeme
  obtain ⟨hlexeme', hwhole⟩ := valueLexeme_append hlexeme hend hclosed u
  refine ⟨hpass, hwhole, next_of_lexeme (h.unitDue.trans hunit) hlength hpass ?_⟩
  have hvalue : (m.pass (before ++ gap).length).mode = .value := h.mode
  have hsigned := h.signed_eq gap.length
  rw [← List.length_append] at hsigned
  rw [lexeme, hvalue]
  exact (congrArg (valueLexeme · c _) hsigned).trans hlexeme'

theorem Widened.next (h : l.Widened m before u) (hmode : l.mode = .value)
    (hnext : l.next = (.ok (some t), l')) (hsource : l.rest = gap ++ t.source)
    (hgap : IsBlank gap) (hclosed : openEscape l.rest = false) :
    ∃ v m', m.next = (.ok (some v), m') ∧ m.rest = before ++ gap ++ v.source ∧
      v.spelling = ⟨t.kind, t.text, t.spaceBefore || !before.isEmpty⟩ ∧
      l'.Widened m' [] u ∧ openEscape l'.rest = false := by
  obtain ⟨hunit, heq⟩ | ⟨hunit, n, hlength,
    ⟨-, hnone, -⟩ | ⟨c, cs, kind, k, hrest, hlexeme, heq⟩⟩ := next_ok hnext
  · obtain ⟨rfl, rfl⟩ : t = (l.emit .unit (unitLength l.rest) false).1 ∧
        l' = (l.emit .unit (unitLength l.rest) false).2 := by
      cases heq
      exact ⟨rfl, rfl⟩
    obtain ⟨rfl, hm, hspace, hwhole, hnext'⟩ := h.next_unit hunit hclosed
    obtain ⟨hwidened, htext⟩ := widened_emit hm h.mode hspace hwhole .unit false false
    have hnil : gap = [] := List.self_eq_append_left.1 hsource
    refine ⟨_, _, hnext', ?_, ?_, hwidened, hwhole.closed⟩
    · rw [hnil]
      rfl
    · rw [← htext]
      rfl
  · cases hnone
  · generalize hspaced : (l.spaceDue || n != 0) = spaced at hlexeme heq
    obtain ⟨rfl, rfl⟩ : t = ((l.pass n).emit kind k spaced).1 ∧
        l' = ((l.pass n).emit kind k spaced).2 := by
      cases heq
      exact ⟨rfl, rfl⟩
    have hdrop : l.rest.drop n = c :: cs := hrest
    have hl : l.rest = gap ++ c :: cs := hsource.trans (congrArg (gap ++ ·) hrest)
    obtain rfl : gap.length = n := by
      have hbehind := congrArg List.length hdrop
      have hall := congrArg List.length hl
      rw [List.length_drop, List.length_cons] at hbehind
      rw [List.length_append, List.length_cons] at hall
      omega
    have hend : ¬ StartsGap true (c :: cs) := by
      obtain ⟨passed, rest, hsplit, hpassed, -, hend⟩ := gapLength_ok hlength
      rw [hsplit, hpassed, Nat.zero_add, List.drop_left] at hdrop
      rwa [hmode, hdrop] at hend
    rw [hl, openEscape_blank hgap] at hclosed
    subst hspaced
    obtain ⟨hm, hwhole, hnext'⟩ := h.next_token hmode hunit hl hgap hend hclosed hlexeme
    rw [← hrest] at hm hwhole
    obtain ⟨hwidened, htext⟩ := widened_emit (l := l.pass gap.length) hm h.mode rfl hwhole kind
      (l.spaceDue || gap.length != 0) (m.spaceDue || (before ++ gap).length != 0)
    refine ⟨_, _, hnext', ?_, ?_, hwidened, hwhole.closed⟩
    · show m.rest = before ++ gap ++ (m.pass (before ++ gap).length).rest
      rw [hm, hrest, h.rest, hl]
      simp
    · have hspace : (m.spaceDue || (before ++ gap).length != 0) =
          (l.spaceDue || gap.length != 0 || !before.isEmpty) := by
        obtain ⟨rfl, -, hspace⟩ | ⟨hne, -⟩ := h.last
        · rw [hspace]
          simp
        · cases before with
          | nil => exact absurd rfl hne
          | cons d before => simp
      rw [Token.spelling, htext]
      exact congrArg (Spelling.mk kind _) hspace

end Lexer

/-- The tokens of a text that has a space before it, if `spaced` says so. -/
def spaceFirst (spaced : Bool) : List Spelling → List Spelling
  | [] => []
  | p :: ps => { p with spaced := p.spaced || spaced } :: ps

theorem spaceFirst_false (ps : List Spelling) : spaceFirst false ps = ps := by
  cases ps with
  | nil => rfl
  | cons p ps => rw [spaceFirst, Bool.or_false]

/-- The tokens of a text, and then those of what is put behind it. -/
theorem Lexer.Apart.append {l m : Lexer} {ps tail : List Spelling} {before u : List Char}
    (h : l.Apart ps) (hclosed : openEscape l.rest = false) (hm : l.Widened m before u)
    (htail : ∀ (m' : Lexer) (gap : List Char), m'.mode = .value → m'.unitDue = false →
      IsBlank gap → m'.rest = gap ++ ' ' :: u → m'.Apart tail) :
    m.Apart (spaceFirst (!before.isEmpty) ps ++ tail) := by
  induction h generalizing m before with
  | @nil l _ hunit hrest =>
    refine htail m (before ++ l.rest) hm.mode (hm.unitDue.trans hunit)
      (List.forall_mem_append.2 ⟨hm.blank, hrest⟩) ?_
    rw [hm.rest, List.append_assoc]
  | @cons l l' t gap ps hmode hnext hsource hgap _ ih =>
    obtain ⟨v, m', hnext', hsource', hspelling, hm', hclosed'⟩ :=
      hm.next hmode hnext hsource hgap hclosed
    have hrest := ih hclosed' hm'
    rw [List.isEmpty_nil, Bool.not_true, spaceFirst_false] at hrest
    have hfirst : spaceFirst (!before.isEmpty) (t.spelling :: ps) = v.spelling :: ps := by
      rw [hspelling]
      rfl
    rw [hfirst]
    exact .cons hm.mode hnext' hsource' (List.forall_mem_append.2 ⟨hm.blank, hgap⟩) hrest

end Stylesheet
