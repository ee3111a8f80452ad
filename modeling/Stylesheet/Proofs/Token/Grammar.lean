import Stylesheet.Token.Lexer

/-!
# The text of tokens

What the text that a scan passes over looks like. The scans count characters; here each of them is
matched with a grammar of the texts that it counts.

* `Quoted`, `Bracketed`, `Comment`, `Gap`: strings, brackets, comments and what separates tokens.
* `Run`: selector text, with its bracketed parts.
* `SelectorToken`: the tokens of a selector; `selectorLexeme_ok`: every lexeme is one of them.
* `Lexer.next_ok`: what a lexer does for its next token; `Lexer.next_selector`: in a selector.
-/

namespace Stylesheet

namespace Lexeme

/-- What stands after an opening quote, the closing one included. -/
inductive Quoted (quote : Char) : List Char → Prop
  | close : Quoted quote [quote]
  | escape (c : Char) {text : List Char} (h : Quoted quote text) : Quoted quote ('\\' :: c :: text)
  | char {c : Char} {text : List Char} (hquote : c ≠ quote) (hescape : c ≠ '\\') (hline : c ≠ '\n')
      (h : Quoted quote text) : Quoted quote (c :: text)

/-- What stands after an opening bracket inside of `depth` others, up to the bracket that closes
them all. Strings are skipped. -/
inductive Bracketed (opening closing : Char) : Nat → List Char → Prop
  | close : Bracketed opening closing 0 [closing]
  | inner {depth : Nat} {text : List Char} (h : Bracketed opening closing depth text) :
      Bracketed opening closing (depth + 1) (closing :: text)
  | opening {depth : Nat} {text : List Char} (h : Bracketed opening closing (depth + 1) text) :
      Bracketed opening closing depth (opening :: text)
  | string {depth : Nat} {quote : Char} {string text : List Char} (hquote : isQuote quote = true)
      (hstring : Quoted quote string) (h : Bracketed opening closing depth text) :
      Bracketed opening closing depth (quote :: (string ++ text))
  | char {depth : Nat} {c : Char} {text : List Char} (hquote : isQuote c = false)
      (hopening : c ≠ opening) (hclosing : c ≠ closing)
      (h : Bracketed opening closing depth text) : Bracketed opening closing depth (c :: text)

/-- What stands after the opening mark of a comment. -/
inductive Comment : List Char → Prop
  | close : Comment ['*', '/']
  | char {c : Char} {text : List Char} (hc : c = '*' → text.head? ≠ some '/') (h : Comment text) :
      Comment (c :: text)

/-- What stands between tokens: white space, comments up to the end of a line, and other comments
if `comments` says so. -/
inductive Gap (comments : Bool) : List Char → Prop
  | nil : Gap comments []
  | blank {c : Char} {gap : List Char} (hc : Text.isBlank c = true) (h : Gap comments gap) :
      Gap comments (c :: gap)
  | line {line gap : List Char} (hline : '\n' ∉ line) (h : Gap comments gap) :
      Gap comments ('/' :: '/' :: (line ++ gap))
  | comment {comment gap : List Char} (hcomments : comments = true) (hcomment : Comment comment)
      (h : Gap comments gap) : Gap comments ('/' :: '*' :: (comment ++ gap))

/-- A gap before `rest`, in which a comment up to the end of a line has reached that end. -/
inductive Trivia (comments : Bool) (rest : List Char) : List Char → Prop
  | nil : Trivia comments rest []
  | blank {c : Char} {gap : List Char} (hc : Text.isBlank c = true)
      (h : Trivia comments rest gap) : Trivia comments rest (c :: gap)
  | line {line gap : List Char} (hline : '\n' ∉ line) (hend : ∀ c ∈ (gap ++ rest).head?, c = '\n')
      (h : Trivia comments rest gap) : Trivia comments rest ('/' :: '/' :: (line ++ gap))
  | comment {comment gap : List Char} (hcomments : comments = true) (hcomment : Comment comment)
      (h : Trivia comments rest gap) : Trivia comments rest ('/' :: '*' :: (comment ++ gap))

/-- Whether more of a gap follows. -/
def StartsGap (comments : Bool) : List Char → Prop
  | [] => False
  | c :: cs => Text.isBlank c = true ∨ c = '/' ∧ cs.head? = some '/' ∨
      comments = true ∧ c = '/' ∧ cs.head? = some '*'

def brackets : List (Char × Char) := [('(', ')'), ('[', ']')]

/-- All the selector text before `rest`, with the bracketed parts of it. -/
inductive Run (rest : List Char) : List Char → List (List Char) → Prop
  | nil (hrest : ∀ c cs, rest = c :: cs → endsSelectorText c cs = true) : Run rest [] []
  | char {c : Char} {text : List Char} {groups : List (List Char)}
      (hbracket : c ∉ ['(', '[', ')', ']']) (hc : endsSelectorText c (text ++ rest) = false)
      (h : Run rest text groups) :
      Run rest (c :: text) groups
  | group {opening closing : Char} {group text : List Char} {groups : List (List Char)}
      (hbrackets : (opening, closing) ∈ brackets) (hgroup : Bracketed opening closing 0 group)
      (h : Run rest text groups) :
      Run rest (opening :: (group ++ text)) ((opening :: group) :: groups)

/-! ## Scans -/

theorem stringEnd_ok {quote : Char} {start n m : Nat} {cs : List Char}
    (h : stringEnd quote start n cs = .ok m) :
    ∃ text rest, cs = text ++ rest ∧ m = n + text.length ∧ Quoted quote text := by
  fun_induction stringEnd quote start n cs with
  | case1 => cases h
  | case2 => cases h
  | case3 => cases h
  | case4 n c cs ih =>
    obtain ⟨text, rest, rfl, rfl, htext⟩ := ih h
    exact ⟨'\\' :: c :: text, rest, rfl, by simp; omega, .escape c htext⟩
  | case5 n cs =>
    cases h
    exact ⟨[quote], cs, rfl, rfl, .close⟩
  | case6 n c cs hline hlast hescape hquote ih =>
    obtain ⟨text, rest, rfl, rfl, htext⟩ := ih h
    have hc : c ≠ '\\' := by
      intro hc
      cases htext with
      | _ => exact hescape _ _ hc rfl
    exact ⟨c :: text, rest, rfl, by simp; omega, .char hquote hc hline htext⟩

theorem bracketEnd_ok {opening closing : Char} {start depth n m : Nat} {cs : List Char}
    (h : bracketEnd opening closing start (depth + 1) n cs = .ok m) :
    ∃ text rest, cs = text ++ rest ∧ m = n + text.length ∧
      Bracketed opening closing depth text := by
  generalize hopen : depth + 1 = open' at h
  fun_induction bracketEnd opening closing start open' n cs generalizing depth with
  | case1 => cases h
  | case2 => cases h
  | case3 _ n quote cs hquote k hstring ih =>
    obtain ⟨string, rest, rfl, rfl, hquoted⟩ := stringEnd_ok hstring
    have hdrop : (string ++ rest).drop (n + 1 + string.length - (n + 1)) = rest := by
      rw [Nat.add_sub_cancel_left, List.drop_left]
    rw [hdrop] at ih h
    obtain ⟨text, rest, rfl, rfl, htext⟩ := ih hopen h
    refine ⟨quote :: (string ++ text), rest, by simp, by simp; omega, .string hquote hquoted htext⟩
  | case4 d n cs hquote ih =>
    have hdepth : depth + 1 + 1 = d + 1 := by rw [hopen]
    obtain ⟨text, rest, rfl, rfl, htext⟩ := ih hdepth h
    exact ⟨opening :: text, rest, rfl, by simp; omega, .opening htext⟩
  | case5 _ n cs hdepth hquote hopening =>
    cases h
    obtain rfl : depth = 0 := by omega
    exact ⟨[closing], cs, rfl, rfl, .close⟩
  | case6 d n cs hdepth hquote hopening ih =>
    obtain ⟨depth, rfl⟩ : ∃ k, depth = k + 1 := ⟨depth - 1, by omega⟩
    have hinner : depth + 1 = d - 1 := by omega
    obtain ⟨text, rest, rfl, rfl, htext⟩ := ih hinner h
    exact ⟨closing :: text, rest, rfl, by simp; omega, .inner htext⟩
  | case7 _ n c cs hquote hopening hclosing ih =>
    obtain ⟨text, rest, rfl, rfl, htext⟩ := ih hopen h
    exact ⟨c :: text, rest, rfl, by simp; omega,
      .char (Bool.eq_false_iff.2 hquote) hopening hclosing htext⟩

theorem commentEnd_eq_some {n m : Nat} {cs : List Char} (h : commentEnd n cs = some m) :
    ∃ text rest, cs = text ++ rest ∧ m = n + text.length ∧ Comment text := by
  fun_induction commentEnd n cs with
  | case1 => cases h
  | case2 n cs =>
    cases h
    exact ⟨['*', '/'], cs, rfl, rfl, .close⟩
  | case3 n c cs hclose ih =>
    obtain ⟨text, rest, rfl, rfl, htext⟩ := ih h
    refine ⟨c :: text, rest, rfl, by simp; omega, .char (fun hc hhead => ?_) htext⟩
    obtain ⟨tail, rfl⟩ := List.head?_eq_some_iff.1 hhead
    exact hclose (tail ++ rest) hc rfl

theorem lineLength_slash (cs : List Char) :
    ∃ line rest, cs = line ++ rest ∧ lineLength ('/' :: cs) = line.length + 1 ∧ '\n' ∉ line ∧
      ∀ c ∈ rest.head?, c = '\n' := by
  refine ⟨cs.takeWhile (· != '\n'), cs.dropWhile (· != '\n'), ?_, rfl, fun hline => ?_, ?_⟩
  · exact List.takeWhile_append_dropWhile.symm
  · have hne := List.all_takeWhile (p := (· != '\n')) (l := cs)
    rw [List.all_eq_true] at hne
    simpa using hne _ hline
  · intro c hc
    have hstop := List.head?_dropWhile_not (· != '\n') cs
    rw [Option.mem_def.1 hc] at hstop
    simpa using hstop

theorem gapLength_trivia {comments : Bool} {n m : Nat} {cs : List Char}
    (h : gapLength comments n cs = .ok m) :
    ∃ gap rest, cs = gap ++ rest ∧ m = n + gap.length ∧ Trivia comments rest gap ∧
      ¬ StartsGap comments rest := by
  fun_induction gapLength comments n cs with
  | case1 =>
    cases h
    exact ⟨[], [], rfl, rfl, .nil, id⟩
  | case2 n c cs hc ih =>
    obtain ⟨gap, rest, rfl, rfl, hgap, hend⟩ := ih h
    exact ⟨c :: gap, rest, rfl, by simp; omega, .blank hc hgap, hend⟩
  | case3 n c cs _ hslash ih =>
    obtain ⟨rfl, hhead⟩ := hslash
    obtain ⟨tail, rfl⟩ := List.head?_eq_some_iff.1 hhead
    obtain ⟨line, rest, rfl, hlength, hline, hstop⟩ := lineLength_slash tail
    have hdrop : ('/' :: (line ++ rest)).drop (line.length + 1) = rest := by simp
    rw [hlength, hdrop] at ih h
    obtain ⟨gap, rest, rfl, rfl, hgap, hend⟩ := ih h
    exact ⟨'/' :: '/' :: (line ++ gap), rest, by simp, by simp; omega, .line hline hstop hgap,
      hend⟩
  | case4 => cases h
  | case5 n c cs _ _ hstar k hscan ih =>
    obtain ⟨hcomments, rfl, hhead⟩ := hstar
    obtain ⟨tail, rfl⟩ := List.head?_eq_some_iff.1 hhead
    obtain ⟨comment, rest, htail, rfl, hcomment⟩ := commentEnd_eq_some hscan
    rw [List.drop_succ_cons, List.drop_zero] at htail
    subst htail
    have hdrop : ('*' :: (comment ++ rest)).drop (n + 2 + comment.length - (n + 1)) = rest := by
      rw [show n + 2 + comment.length - (n + 1) = comment.length + 1 by omega]
      simp
    rw [hdrop] at ih h
    obtain ⟨gap, rest, rfl, rfl, hgap, hend⟩ := ih h
    exact ⟨'/' :: '*' :: (comment ++ gap), rest, by simp, by simp; omega,
      .comment hcomments hcomment hgap, hend⟩
  | case6 n c cs hblank hline hcomment =>
    cases h
    exact ⟨[], c :: cs, rfl, rfl, .nil, not_or.2 ⟨hblank, not_or.2 ⟨hline, hcomment⟩⟩⟩

theorem Trivia.isGap {comments : Bool} {rest gap : List Char} (h : Trivia comments rest gap) :
    Gap comments gap := by
  induction h with
  | nil => exact .nil
  | blank hc _ ih => exact .blank hc ih
  | line hline _ _ ih => exact .line hline ih
  | comment hcomments hcomment _ ih => exact .comment hcomments hcomment ih

theorem gapLength_ok {comments : Bool} {n m : Nat} {cs : List Char}
    (h : gapLength comments n cs = .ok m) :
    ∃ gap rest, cs = gap ++ rest ∧ m = n + gap.length ∧ Gap comments gap ∧
      ¬ StartsGap comments rest := by
  obtain ⟨gap, rest, hcs, hm, hgap, hend⟩ := gapLength_trivia h
  exact ⟨gap, rest, hcs, hm, hgap.isGap, hend⟩

theorem selectorTextEnd_ok {n m : Nat} {cs : List Char} (h : selectorTextEnd n cs = .ok m) :
    ∃ text rest groups, cs = text ++ rest ∧ m = n + text.length ∧ Run rest text groups := by
  fun_induction selectorTextEnd n cs with
  | case1 =>
    cases h
    exact ⟨[], [], [], rfl, rfl, .nil (fun c cs hrest => by cases hrest)⟩
  | case2 n c cs hends =>
    cases h
    refine ⟨[], c :: cs, [], rfl, rfl, .nil (fun d ds hrest => ?_)⟩
    cases hrest
    exact hends
  | case3 => cases h
  | case4 n c cs _ hc k hend ih =>
    have hbrackets : (c, if c = '(' then ')' else ']') ∈ brackets := by
      rcases hc with rfl | rfl <;> decide
    obtain ⟨group, rest, rfl, rfl, hgroup⟩ := bracketEnd_ok hend
    have hdrop : (group ++ rest).drop (n + 1 + group.length - (n + 1)) = rest := by
      rw [Nat.add_sub_cancel_left, List.drop_left]
    rw [hdrop] at ih h
    obtain ⟨text, rest, groups, rfl, rfl, htext⟩ := ih h
    exact ⟨c :: (group ++ text), rest, (c :: group) :: groups, by simp, by simp; omega,
      .group hbrackets hgroup htext⟩
  | case5 => cases h
  | case6 n c cs hends hopening hclosing ih =>
    obtain ⟨text, rest, groups, rfl, rfl, htext⟩ := ih h
    have hbracket : c ∉ ['(', '[', ')', ']'] := by
      rw [not_or] at hopening hclosing
      simp [hopening, hclosing]
    exact ⟨c :: text, rest, groups, rfl, by simp; omega,
      .char hbracket (Bool.eq_false_iff.2 hends) htext⟩

/-! ## Tokens of a selector -/

/-- A token of a selector of some kind, with its text and what stands after it. It is not empty
except before a gap. -/
inductive SelectorToken : TokenKind → List Char → List Char → Prop
  | comma (rest : List Char) : SelectorToken .comma [','] rest
  | ampersand (rest : List Char) : SelectorToken .ampersand ['&'] rest
  | leftBrace (rest : List Char) : SelectorToken .leftBrace ['\x7b'] rest
  | rightBrace (rest : List Char) : SelectorToken .rightBrace ['\x7d'] rest
  | semicolon (rest : List Char) : SelectorToken .semicolon [';'] rest
  | interpolation (rest : List Char) : SelectorToken .interpolation ['#', '\x7b'] rest
  | string {quote : Char} {string : List Char} (hquote : isQuote quote = true)
      (hstring : Quoted quote string) (rest : List Char) :
      SelectorToken .str (quote :: string) rest
  | text {text rest : List Char} {groups : List (List Char)} (h : Run rest text groups)
      (hempty : text = [] → StartsGap true rest) : SelectorToken .text text rest

theorem SelectorToken.startsGap {kind : TokenKind} {rest : List Char}
    (h : SelectorToken kind [] rest) : StartsGap true rest := by
  cases h with
  | text _ hempty => exact hempty rfl

theorem startsGap_of_endsSelectorText {c : Char} {cs : List Char}
    (hends : endsSelectorText c cs = true) (hmark : c ∉ [',', '&', '\x7b', '\x7d', ';'])
    (hquote : ¬ isQuote c = true) (hinterpolation : ¬ (c = '#' ∧ cs.head? = some '\x7b')) :
    StartsGap true (c :: cs) := by
  have hcontains : [',', '&', '\x7b', '\x7d', ';'].contains c = false := by simpa using hmark
  simp only [endsSelectorText, hcontains, Bool.or_eq_true, Bool.and_eq_true, beq_iff_eq, hquote,
    hinterpolation, Bool.false_eq_true, or_false] at hends
  rcases hends with hblank | ⟨hslash, hstar | hline⟩
  · exact .inl hblank
  · exact .inr (.inr ⟨rfl, hslash, hstar⟩)
  · exact .inr (.inl ⟨hslash, hline⟩)

theorem kind_of_map {scan : Scan} {kind kind' : TokenKind} {n : Nat}
    (h : scan.map (kind, ·) = .ok (kind', n)) : kind = kind' ∧ scan = .ok n := by
  cases scan with
  | error e => cases h
  | ok m =>
    cases h
    exact ⟨rfl, rfl⟩

theorem selectorLexeme_ok {c : Char} {cs : List Char} {kind : TokenKind} {n : Nat}
    (h : selectorLexeme c cs = .ok (kind, n)) :
    ∃ text rest, c :: cs = text ++ rest ∧ n = text.length ∧ SelectorToken kind text rest := by
  unfold selectorLexeme at h
  split at h
  case isTrue hc =>
    subst hc
    cases h
    exact ⟨_, cs, rfl, rfl, .comma cs⟩
  split at h
  case isTrue hc =>
    subst hc
    cases h
    exact ⟨_, cs, rfl, rfl, .ampersand cs⟩
  split at h
  case isTrue hc =>
    subst hc
    cases h
    exact ⟨_, cs, rfl, rfl, .leftBrace cs⟩
  split at h
  case isTrue hc =>
    subst hc
    cases h
    exact ⟨_, cs, rfl, rfl, .rightBrace cs⟩
  split at h
  case isTrue hc =>
    subst hc
    cases h
    exact ⟨_, cs, rfl, rfl, .semicolon cs⟩
  split at h
  case isTrue hquote =>
    obtain ⟨rfl, hend⟩ := kind_of_map h
    obtain ⟨string, rest, rfl, rfl, hstring⟩ := stringEnd_ok hend
    exact ⟨c :: string, rest, rfl, by simp; omega, .string hquote hstring rest⟩
  split at h
  case isTrue hc =>
    obtain ⟨rfl, hhead⟩ := hc
    obtain ⟨rest, rfl⟩ := List.head?_eq_some_iff.1 hhead
    cases h
    exact ⟨_, rest, rfl, rfl, .interpolation rest⟩
  case isFalse hinterpolation =>
    rename_i hcomma hparent hleft hright hsemicolon hquote
    obtain ⟨rfl, hend⟩ := kind_of_map h
    obtain ⟨text, rest, groups, htext, rfl, hrun⟩ := selectorTextEnd_ok hend
    refine ⟨text, rest, htext, by simp, .text hrun fun hempty => ?_⟩
    subst hempty
    obtain rfl : c :: cs = rest := htext
    cases hrun with
    | nil hrest =>
      have hmark : c ∉ [',', '&', '\x7b', '\x7d', ';'] := by
        simp [hcomma, hparent, hleft, hright, hsemicolon]
      exact startsGap_of_endsSelectorText (hrest c cs rfl) hmark hquote hinterpolation

/-! ## What selector text holds -/

/-- Two characters in a row in a text of two parts, maybe one at the end of the first and one at the
beginning of the second. -/
theorem pair_infix_append {a b : Char} (l m : List Char) :
    [a, b] <:+: l ++ m ↔
      [a, b] <:+: l ∨ [a, b] <:+: m ∨ l.getLast? = some a ∧ m.head? = some b := by
  induction l with
  | nil => simp
  | cons c l ih =>
    rw [List.cons_append, List.infix_cons_iff, ih, List.infix_cons_iff]
    cases l with
    | nil =>
      cases m with
      | nil => simp
      | cons d m =>
        have hpair : a = c ∧ b = d ↔ c = a ∧ d = b := and_congr eq_comm eq_comm
        simp [List.cons_prefix_cons, hpair, or_comm]
    | cons d l => simp [List.cons_prefix_cons, List.getLast?_cons, or_assoc]

theorem single_eq_rightBrace {c : Char} (h : single c = .rightBrace) : c = '\x7d' := by
  unfold single at h
  split at h
  case h_13 => rfl
  all_goals cases h

theorem pair?_ne_rightBrace (c : Char) (next : Option Char) :
    next.bind (pair? c) ≠ some .rightBrace := by
  cases next with
  | none => simp
  | some d =>
    intro h
    rw [Option.bind_some] at h
    unfold pair? at h
    split at h <;> cases h

theorem identLexeme_ne_rightBrace (cs : List Char) (n : Nat) :
    identLexeme cs ≠ .ok (.rightBrace, n) := by
  intro h
  simp only [identLexeme] at h
  split at h
  · cases (kind_of_map h).1
  · cases h

/-- In a value only a closing brace is read as one. -/
theorem valueLexeme_rightBrace {signed : Bool} {c : Char} {cs : List Char} {n : Nat}
    (h : valueLexeme signed c cs = .ok (.rightBrace, n)) : c = '\x7d' ∧ n = 1 := by
  unfold valueLexeme at h
  repeat' split at h
  · cases h
  · cases h
  · cases (kind_of_map h).1
  · cases h
  · cases h
  · cases h
  · cases h
  · rename_i hpair
    cases h
    exact absurd hpair (pair?_ne_rightBrace c _)
  · cases h
  · cases h
  · cases h
  · cases (kind_of_map h).1
  · cases h
  · exact absurd h (identLexeme_ne_rightBrace _ n)
  · injection h with h
    injection h with hkind hn
    exact ⟨single_eq_rightBrace hkind, hn.symm⟩

end Lexeme

/-! ## The next token -/

/-- A token and the lexer after it. -/
structure Token.Emitted (t : Token) (l : Lexer) : Prop where
  source : t.source = t.text.toList ++ l.rest
  unitDue : t.kind ≠ .number → l.unitDue = false
  spaceDue : t.kind ≠ .unit → l.spaceDue = false
  rightBrace : t.kind = .rightBrace → t.text.toList = ['\x7d']

namespace Lexer

open Lexeme

/-- The lexer behind a gap. -/
def pass (l : Lexer) (gap : Nat) : Lexer := { l.skip gap with spaceDue := false }

/-- A lexer gives the unit of a number, or passes a gap and gives what stands behind it. -/
theorem next_ok {l l' : Lexer} {t : Option Token} (h : l.next = (.ok t, l')) :
    (l.unitDue = true ∧ (t, l') = ((l.emit .unit (unitLength l.rest) false).map some id)) ∨
    (l.unitDue = false ∧ ∃ gap, gapLength (l.mode != .block) 0 l.rest = .ok gap ∧
      ((l.pass gap).rest = [] ∧ t = none ∧ l' = l.pass gap ∨
        ∃ c cs kind n, (l.pass gap).rest = c :: cs ∧
          (l.pass gap).lexeme (l.spaceDue || gap != 0) c cs = .ok (kind, n) ∧
          (t, l') = ((l.pass gap).emit kind n (l.spaceDue || gap != 0)).map some id)) := by
  unfold next at h
  split at h
  · rename_i hunit
    cases h
    exact .inl ⟨hunit, rfl⟩
  · rename_i hunit
    refine .inr ⟨Bool.eq_false_iff.2 hunit, ?_⟩
    split at h
    · cases h
    · rename_i gap hgap
      refine ⟨gap, hgap, ?_⟩
      simp only at h
      split at h
      · rename_i hrest
        cases h
        exact .inl ⟨hrest, rfl, rfl⟩
      · rename_i c cs hrest
        split at h
        · cases h
        · rename_i kind n hlexeme
          cases h
          exact .inr ⟨c, cs, kind, n, hrest, hlexeme, rfl⟩

theorem emitted_emit (l : Lexer) {kind : TokenKind} {n : Nat} (spaceBefore : Bool)
    (hspace : kind ≠ .unit → l.spaceDue = false)
    (hbrace : kind = .rightBrace → l.rest.take n = ['\x7d']) :
    (l.emit kind n spaceBefore).1.Emitted (l.emit kind n spaceBefore).2 := by
  refine ⟨?_, fun hkind => ?_, hspace, fun hkind => ?_⟩
  · simp [emit, skip]
  · have hkind : kind ≠ .number := hkind
    simp [emit, hkind]
  · simpa [emit] using hbrace hkind

theorem lexeme_rightBrace {l : Lexer} {spaceBefore : Bool} {c : Char} {cs : List Char} {n : Nat}
    (h : l.lexeme spaceBefore c cs = .ok (.rightBrace, n)) : c = '\x7d' ∧ n = 1 := by
  unfold lexeme at h
  split at h
  · obtain ⟨text, rest, htext, rfl, htoken⟩ := selectorLexeme_ok h
    cases htoken
    cases htext
    exact ⟨rfl, rfl⟩
  · exact valueLexeme_rightBrace h
  · exact valueLexeme_rightBrace h

theorem next_emitted {l l' : Lexer} {t : Token} (h : l.next = (.ok (some t), l')) :
    t.Emitted l' ∧ t.source <:+ l.rest := by
  obtain ⟨-, heq⟩ | ⟨-, gap, -, ⟨-, hnone, -⟩ | ⟨c, cs, kind, n, hrest, hlexeme, heq⟩⟩ := next_ok h
  · cases heq
    exact ⟨emitted_emit l false (absurd rfl) (fun hkind => by cases hkind), List.suffix_refl _⟩
  · cases hnone
  · cases heq
    refine ⟨emitted_emit _ _ (fun _ => rfl) fun hkind => ?_, List.drop_suffix _ _⟩
    subst hkind
    obtain ⟨rfl, rfl⟩ := lexeme_rightBrace hlexeme
    rw [hrest]
    rfl

end Lexer

end Stylesheet
