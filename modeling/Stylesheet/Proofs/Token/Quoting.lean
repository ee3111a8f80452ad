import Stylesheet.Proofs.Token.Grammar

/-!
# What diagnostics quote

A diagnostic quotes the token that was not expected, or the name of a property that was read from
several tokens. Each part is cut from the source, but between two parts there may have been a gap, and
so the parts put together need not be. Two characters in a row may then come from two places; a star
and a slash never do, since no part of a name starts with a slash.

* `Pieced`: texts that are put together from parts of the source.
* `SyntaxFault.quoted`: the text that a fault quotes.
* `Token.Written`: how the text of a token stands in the source; `Lexer.next_written`.
* `Lexer.next_quoted`: a lexeme without an end quotes nothing.
-/

namespace Stylesheet

open Lexeme

/-! ## Parts of the source -/

/-- A text that is put together from parts of the source, none of which starts with a slash behind
another one. -/
inductive Pieced (source : List Char) : List Char → Prop
  | nil : Pieced source []
  | append {text part : List Char} (h : Pieced source text) (hpart : part <:+: source)
      (hslash : text = [] ∨ part.head? ≠ some '/') : Pieced source (text ++ part)

theorem Pieced.of_part {source text : List Char} (h : text <:+: source) : Pieced source text :=
  .append .nil h (.inl rfl)

/-- Such a text closes a comment only if the source does. -/
theorem Pieced.closing_of_closing {source text : List Char} (h : Pieced source text)
    (hclosing : ['*', '/'] <:+: text) : ['*', '/'] <:+: source := by
  induction h with
  | nil => simp at hclosing
  | append h hpart hslash ih =>
    rcases (pair_infix_append _ _).1 hclosing with htext | hin | ⟨hlast, hhead⟩
    · exact ih htext
    · exact hin.trans hpart
    · rcases hslash with rfl | hslash
      · cases hlast
      · exact absurd hhead hslash

/-- The text that a fault quotes. -/
def SyntaxFault.quoted : SyntaxFault → String
  | unexpectedToken _ text => text
  | missingValue name => name
  | invalidNumber text => text
  | _ => ""

/-! ## Lexemes without an end -/

namespace Lexeme

theorem stringEnd_quoted {quote : Char} {start n : Nat} {cs : List Char} {e : Unfinished}
    (h : stringEnd quote start n cs = .error e) : e.fault.quoted = "" := by
  fun_induction stringEnd quote start n cs
  case case1 | case2 | case3 =>
    cases h
    rfl
  case case4 ih | case6 ih => exact ih h
  case case5 => cases h

theorem bracketEnd_quoted {opening closing : Char} {start depth n : Nat} {cs : List Char}
    {e : Unfinished} (h : bracketEnd opening closing start depth n cs = .error e) :
    e.fault.quoted = "" := by
  fun_induction bracketEnd opening closing start depth n cs
  case case1 =>
    cases h
    rfl
  case case2 hstring =>
    cases h
    exact stringEnd_quoted hstring
  case case3 ih | case4 ih | case6 ih | case7 ih => exact ih h
  case case5 => cases h

theorem urlEnd_quoted {start n : Nat} {cs : List Char} {e : Unfinished}
    (h : urlEnd start n cs = .error e) : e.fault.quoted = "" := by
  fun_induction urlEnd start n cs
  case case1 =>
    cases h
    rfl
  case case2 hstring =>
    cases h
    exact stringEnd_quoted hstring
  case case3 ih | case5 ih => exact ih h
  case case4 => cases h

theorem gapLength_quoted {comments : Bool} {n : Nat} {cs : List Char} {e : Unfinished}
    (h : gapLength comments n cs = .error e) : e.fault.quoted = "" := by
  fun_induction gapLength comments n cs
  case case1 | case6 => cases h
  case case2 ih | case3 ih | case5 ih => exact ih h
  case case4 =>
    cases h
    rfl

theorem selectorTextEnd_quoted {n : Nat} {cs : List Char} {e : Unfinished}
    (h : selectorTextEnd n cs = .error e) : e.fault.quoted = "" := by
  fun_induction selectorTextEnd n cs
  case case1 | case2 => cases h
  case case3 hbracket =>
    cases h
    exact bracketEnd_quoted hbracket
  case case4 ih | case6 ih => exact ih h
  case case5 =>
    cases h
    rfl

theorem error_of_map {scan : Scan} {kind : TokenKind} {e : Unfinished}
    (h : scan.map (kind, ·) = .error e) : scan = .error e := by
  cases scan with
  | error e' =>
    cases h
    rfl
  | ok n => cases h

theorem selectorLexeme_quoted {c : Char} {cs : List Char} {e : Unfinished}
    (h : selectorLexeme c cs = .error e) : e.fault.quoted = "" := by
  unfold selectorLexeme at h
  repeat' split at h
  · cases h
  · cases h
  · cases h
  · cases h
  · cases h
  · exact stringEnd_quoted (error_of_map h)
  · cases h
  · exact selectorTextEnd_quoted (error_of_map h)

theorem identLexeme_quoted {cs : List Char} {e : Unfinished} (h : identLexeme cs = .error e) :
    e.fault.quoted = "" := by
  simp only [identLexeme] at h
  split at h
  · exact urlEnd_quoted (error_of_map h)
  · cases h

theorem valueLexeme_quoted {signed : Bool} {c : Char} {cs : List Char} {e : Unfinished}
    (h : valueLexeme signed c cs = .error e) : e.fault.quoted = "" := by
  unfold valueLexeme at h
  repeat' split at h
  · cases h
    rfl
  · cases h
  · exact stringEnd_quoted (error_of_map h)
  · cases h
  · cases h
  · cases h
  · cases h
  · cases h
  · cases h
  · cases h
  · cases h
  · exact bracketEnd_quoted (error_of_map h)
  · cases h
  · exact identLexeme_quoted h
  · cases h

/-! ## Tokens that start with a slash -/

theorem selectorLexeme_slash {cs : List Char} {kind : TokenKind} {n : Nat}
    (h : selectorLexeme '/' cs = .ok (kind, n)) : kind = .text :=
  (kind_of_map h).1.symm

theorem pair?_slash (next : Option Char) : next.bind (pair? '/') = none := by
  cases next with
  | none => rfl
  | some d => rfl

theorem valueLexeme_slash {signed : Bool} {cs : List Char} {kind : TokenKind} {n : Nat}
    (h : valueLexeme signed '/' cs = .ok (kind, n)) : kind = .comment ∨ kind = .slash := by
  unfold valueLexeme at h
  split at h
  next =>
    split at h
    · cases h
    · cases h
      exact .inl rfl
  next =>
    have hpair := pair?_slash cs.head?
    rw [hpair] at h
    cases h
    exact .inr rfl

end Lexeme

/-- How the text of a token stands in the source. -/
structure Token.Written (t : Token) : Prop where
  text_leads : t.text.toList <+: t.source
  slash : t.text.toList.head? = some '/' → t.kind = .comment ∨ t.kind = .slash ∨ t.kind = .text

namespace Lexer

theorem lexeme_quoted {l : Lexer} {spaceBefore : Bool} {c : Char} {cs : List Char} {e : Unfinished}
    (h : l.lexeme spaceBefore c cs = .error e) : e.fault.quoted = "" := by
  unfold lexeme at h
  split at h
  · exact selectorLexeme_quoted h
  · exact valueLexeme_quoted h
  · exact valueLexeme_quoted h

theorem lexeme_slash {l : Lexer} {spaceBefore : Bool} {cs : List Char} {kind : TokenKind} {n : Nat}
    (h : l.lexeme spaceBefore '/' cs = .ok (kind, n)) :
    kind = .comment ∨ kind = .slash ∨ kind = .text := by
  unfold lexeme at h
  split at h
  · exact .inr (.inr (selectorLexeme_slash h))
  · exact (valueLexeme_slash h).imp_right .inl
  · exact (valueLexeme_slash h).imp_right .inl

theorem next_quoted {l l' : Lexer} {e : SyntaxError} (h : l.next = (.error e, l')) :
    e.fault.quoted = "" := by
  unfold next at h
  split at h
  · cases h
  · split at h
    · rename_i hgap
      cases h
      exact gapLength_quoted hgap
    · simp only at h
      split at h
      · cases h
      · split at h
        · rename_i hlexeme
          cases h
          exact lexeme_quoted hlexeme
        · cases h

theorem next_written {l l' : Lexer} {t : Token} (h : l.next = (.ok (some t), l')) : t.Written := by
  have hsource := (next_emitted h).1.source
  refine ⟨⟨l'.rest, hsource.symm⟩, fun hslash => ?_⟩
  obtain ⟨-, heq⟩ | ⟨-, gap, -, ⟨-, hnone, -⟩ | ⟨c, cs, kind, n, hrest, hlexeme, heq⟩⟩ := next_ok h
  · cases heq
    -- No unit starts with a slash.
    have hhead : (l.rest.take (unitLength l.rest)).head? = some '/' := by simpa [emit] using hslash
    cases hrest : l.rest with
    | nil =>
      rw [hrest] at hhead
      cases hhead
    | cons c cs =>
      rw [hrest, List.head?_take] at hhead
      split at hhead
      · cases hhead
      · rename_i hpos
        obtain rfl : c = '/' := Option.some.inj hhead
        exact absurd rfl hpos
  · cases hnone
  · cases heq
    have hhead : ((l.pass gap).rest.take n).head? = some '/' := by simpa [emit] using hslash
    rw [hrest, List.head?_take] at hhead
    split at hhead
    · cases hhead
    · obtain rfl : c = '/' := Option.some.inj hhead
      exact lexeme_slash hlexeme

end Lexer

end Stylesheet
