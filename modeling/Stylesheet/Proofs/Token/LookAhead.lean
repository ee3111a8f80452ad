import Stylesheet.Proofs.Token.Values

/-!
# Looking ahead and reading on

Before an item is read, a scan over its characters looks for the semicolon or the brace that ends
it. The tokens of the item say where that is, too. The two agree as long as every piece that is a
token or a comment to the one is balanced text to the other.

* `Level`: how deep a token stands; `Lexer.stretches`: the tokens up to the one that ends an item.
* `BalancedText`: text that leaves the scan as deep as it was.
* `Stretch.IsHarmless`: a token on which the two agree.
* `itemEnd_of_stretches`: if all tokens are harmless, the scan finds the end of the item.
* `itemEnd_differs`: otherwise it may find another end before.
-/

namespace Stylesheet

open Lexeme

/-! ## The end of an item by its tokens -/

/-- How many parentheses and interpolations are open. -/
structure Level where
  parens : Nat
  holes : Nat
  deriving DecidableEq

namespace Level

/-- Outside of everything. -/
def outside : Level := ⟨0, 0⟩

/-- How deep a lexer is after a token. -/
def after (v : Level) : TokenKind → Level
  | .leftParen => { v with parens := v.parens + 1 }
  | .rightParen => { v with parens := v.parens - 1 }
  | .interpolation => { v with holes := v.holes + 1 }
  | .rightBrace => { v with holes := v.holes - 1 }
  | _ => v

/-- The character of a token that ends an item. -/
def stop? (v : Level) (kind : TokenKind) : Option Char :=
  if v = outside then
    match kind with
    | .semicolon => some ';'
    | .leftBrace => some '\x7b'
    | .rightBrace => some '\x7d'
    | _ => none
  else none

end Level

/-- A token where it stands: how deep, what gap is before it, and all that is after it. -/
structure Stretch where
  level : Level
  gap : List Char
  kind : TokenKind
  text : List Char
  rest : List Char
  deriving DecidableEq

/-- The tokens up to the first one outside of everything that ends an item, with its character; at
most `n` of them. -/
def Lexer.stretches : Nat → Level → Lexer → Option (List Stretch × Char)
  | 0, _, _ => none
  | n + 1, v, l =>
    match l.next with
    | (.ok (some t), l') =>
      let gap := l.rest.take (l.rest.length - t.source.length)
      let stretch : Stretch := ⟨v, gap, t.kind, t.text.toList, l'.rest⟩
      match v.stop? t.kind with
      | some c => some ([stretch], c)
      | none => (stretches n (v.after t.kind) l').map fun x => (stretch :: x.1, x.2)
    | _ => none

/-! ## BalancedText text -/

/-- Text before `rest` that leaves a scan as deep as it was. Semicolons and opening braces stand
only in brackets. -/
inductive BalancedText : Bool → List Char → List Char → Prop
  | nil {inside : Bool} {rest : List Char} : BalancedText inside [] rest
  | quiet {inside : Bool} {c : Char} {text rest : List Char} (hc : isQuiet c = true)
      (h : BalancedText inside text rest) : BalancedText inside (c :: text) rest
  | slash {inside : Bool} {text rest : List Char} (hnext : (text ++ rest).head? ≠ some '*')
      (h : BalancedText inside text rest) : BalancedText inside ('/' :: text) rest
  | hash {inside : Bool} {text rest : List Char} (hnext : (text ++ rest).head? ≠ some '\x7b')
      (h : BalancedText inside text rest) : BalancedText inside ('#' :: text) rest
  | string {inside : Bool} {quote : Char} {string text rest : List Char}
      (hquote : isQuote quote = true) (hstring : Quoted quote string)
      (h : BalancedText inside text rest) : BalancedText inside (quote :: (string ++ text)) rest
  /-- A quote without another one to close it reaches to the end of its line. -/
  | apostrophe {inside : Bool} {quote : Char} {line text rest : List Char}
      (hquote : isQuote quote = true) (hline : ∀ c ∈ line, c ∉ [quote, '\\', '\n'])
      (h : BalancedText inside text rest) :
      BalancedText inside (quote :: (line ++ '\n' :: text)) rest
  | comment {inside : Bool} {comment text rest : List Char} (hcomment : Comment comment)
      (h : BalancedText inside text rest) :
      BalancedText inside ('/' :: '*' :: (comment ++ text)) rest
  | stop {c : Char} {text rest : List Char} (hc : c = ';' ∨ c = '\x7b')
      (h : BalancedText true text rest) : BalancedText true (c :: text) rest
  | brackets {inside : Bool} {opening closing : Char} {inner text rest : List Char}
      (hopening : opening = '(' ∨ opening = '[') (hclosing : closing = ')' ∨ closing = ']')
      (hinner : BalancedText true inner (closing :: (text ++ rest)))
      (h : BalancedText inside text rest) :
      BalancedText inside (opening :: (inner ++ closing :: text)) rest
  | hole {inside : Bool} {inner text rest : List Char}
      (hinner : BalancedText inside inner ('\x7d' :: (text ++ rest)))
      (h : BalancedText inside text rest) :
      BalancedText inside ('#' :: '\x7b' :: (inner ++ '\x7d' :: text)) rest

section Scan

variable {parens holes : Nat} {rest : List Char}

theorem itemEndInString_cons {quote c : Char} (hc : c ≠ '\\') (cs : List Char) :
    itemEndInString quote parens holes (c :: cs) =
      if c = quote ∨ c = '\n' then itemEndFrom parens holes cs
      else itemEndInString quote parens holes cs := by
  rw [itemEndInString]
  · intro h
    exact absurd h hc
  · intro d ds h
    exact absurd h hc

theorem itemEndInString_quoted {quote : Char} {string : List Char} (hstring : Quoted quote string)
    (hquote : isQuote quote = true) :
    itemEndInString quote parens holes (string ++ rest) = itemEndFrom parens holes rest := by
  induction hstring with
  | close =>
    have hescape : quote ≠ '\\' := by
      rintro rfl
      cases hquote
    rw [List.singleton_append, itemEndInString_cons hescape, if_pos (.inl rfl)]
  | escape c _ ih => rw [List.cons_append, List.cons_append, itemEndInString, ih]
  | char hc hescape hline _ ih =>
    rw [List.cons_append, itemEndInString_cons hescape, if_neg (by simp [hc, hline]), ih]

theorem itemEndInString_line {quote : Char} {line : List Char}
    (hline : ∀ c ∈ line, c ∉ [quote, '\\', '\n']) :
    itemEndInString quote parens holes (line ++ '\n' :: rest) = itemEndFrom parens holes rest := by
  induction line with
  | nil => rw [List.nil_append, itemEndInString_cons (by decide), if_pos (.inr rfl)]
  | cons c line ih =>
    obtain ⟨hc, hline⟩ := List.forall_mem_cons.1 hline
    simp only [List.mem_cons, List.not_mem_nil, or_false, not_or] at hc
    rw [List.cons_append, itemEndInString_cons hc.2.1, if_neg (by simp [hc]), ih hline]

theorem itemEndFrom_string {quote : Char} (hquote : isQuote quote = true) (cs : List Char) :
    itemEndFrom parens holes (quote :: cs) = itemEndInString quote parens holes cs := by
  simp only [isQuote, Bool.or_eq_true, beq_iff_eq] at hquote
  rcases hquote with rfl | rfl
  · rw [itemEndFrom]
  · rw [itemEndFrom]

theorem itemEndInComment_comment {comment : List Char} (hcomment : Comment comment) :
    itemEndInComment parens holes (comment ++ rest) = itemEndFrom parens holes rest := by
  induction hcomment with
  | close => rw [List.cons_append, List.cons_append, itemEndInComment, List.nil_append]
  | @char c text hc h ih =>
    rw [List.cons_append, itemEndInComment, ih]
    rintro ds rfl htext
    refine hc rfl ?_
    cases h with
    | close => simp at htext
    | char => simpa using congrArg List.head? htext

theorem itemEndFrom_opening {c : Char} (hc : c = '(' ∨ c = '[') (cs : List Char) :
    itemEndFrom parens holes (c :: cs) = itemEndFrom (parens + 1) holes cs := by
  rcases hc with rfl | rfl <;>
  · rw [itemEndFrom_cons (by decide) (by simp) (by simp)]
    simp

theorem itemEndFrom_closing {c : Char} (hc : c = ')' ∨ c = ']') (cs : List Char) :
    itemEndFrom parens holes (c :: cs) = itemEndFrom (parens - 1) holes cs := by
  rcases hc with rfl | rfl <;>
  · rw [itemEndFrom_cons (by decide) (by simp) (by simp)]
    simp

theorem itemEndFrom_rightBrace (hholes : 0 < holes) (cs : List Char) :
    itemEndFrom parens holes ('\x7d' :: cs) = itemEndFrom parens (holes - 1) cs := by
  rw [itemEndFrom_cons (by decide) (by simp) (by simp)]
  simp [hholes]

/-- Within brackets nothing ends an item. -/
theorem itemEndFrom_inside {c : Char} (hc : c = ';' ∨ c = '\x7b' ∨ c = '\x7d' ∧ holes = 0)
    (hparens : 0 < parens) (cs : List Char) :
    itemEndFrom parens holes (c :: cs) = itemEndFrom parens holes cs := by
  have hne : parens ≠ 0 := Nat.ne_of_gt hparens
  rcases hc with rfl | rfl | ⟨rfl, rfl⟩ <;>
  · rw [itemEndFrom_cons (by decide) (by simp) (by simp)]
    simp [hne]

/-- A scan passes over balanced text. -/
theorem BalancedText.itemEndFrom_eq {inside : Bool} {text : List Char}
    (h : BalancedText inside text rest) (hinside : inside = true → 0 < parens) :
    itemEndFrom parens holes (text ++ rest) = itemEndFrom parens holes rest := by
  induction h generalizing parens holes with
  | nil => rfl
  | quiet hc _ ih => rw [List.cons_append, itemEndFrom_quiet hc, ih hinside]
  | slash hnext _ ih =>
    rw [List.cons_append, itemEndFrom_cons (by decide) (fun _ => hnext) (by simp)]
    simpa using ih hinside
  | hash hnext _ ih => rw [List.cons_append, itemEndFrom_hash hnext, ih hinside]
  | string hquote hstring _ ih =>
    rw [List.cons_append, itemEndFrom_string hquote, List.append_assoc,
      itemEndInString_quoted hstring hquote, ih hinside]
  | apostrophe hquote hline _ ih =>
    rw [List.cons_append, itemEndFrom_string hquote, List.append_assoc, List.cons_append,
      itemEndInString_line hline, ih hinside]
  | comment hcomment _ ih =>
    rw [List.cons_append, List.cons_append, itemEndFrom, List.append_assoc,
      itemEndInComment_comment hcomment, ih hinside]
  | stop hc _ ih =>
    rw [List.cons_append, itemEndFrom_inside (hc.imp_right .inl) (hinside rfl), ih hinside]
  | brackets hopening hclosing _ _ ihinner ih =>
    rw [List.cons_append, itemEndFrom_opening hopening, List.append_assoc, List.cons_append,
      ihinner fun _ => by omega, itemEndFrom_closing hclosing, Nat.add_sub_cancel, ih hinside]
  | hole _ _ ihinner ih =>
    rw [List.cons_append, List.cons_append, itemEndFrom, List.append_assoc, List.cons_append,
      ihinner hinside, itemEndFrom_rightBrace (by omega), Nat.add_sub_cancel, ih hinside]

end Scan

/-! ## Agreement -/

/-- White space and comments in marks are balanced; only a comment up to the end of a line may be
anything. -/
theorem Lexeme.Trivia.balanced {comments : Bool} {rest gap : List Char}
    (h : Trivia comments rest gap) (hline : ¬ ['/', '/'] <:+: gap) :
    BalancedText false gap rest := by
  induction h with
  | nil => exact .nil
  | blank hc _ ih =>
    refine .quiet (isQuiet_of_isBlank hc) (ih fun hgap => hline (hgap.trans ?_))
    exact (List.suffix_cons _ _).isInfix
  | line => exact absurd ⟨[], _, rfl⟩ hline
  | comment _ hcomment _ ih =>
    refine .comment hcomment (ih fun hgap => hline (hgap.trans ?_))
    exact ((List.suffix_append _ _).trans ((List.suffix_cons _ _).trans
      (List.suffix_cons _ _))).isInfix

/-- A token on which looking ahead and reading on agree. What may be otherwise are comments up to
the end of a line, urls, bracketed texts and escapes that are not balanced, a stray closing bracket
in parentheses, and a semicolon or an opening brace in an interpolation outside of parentheses. -/
structure Stretch.IsHarmless (s : Stretch) : Prop where
  gap : ['/', '/'] <:+: s.gap → BalancedText false s.gap (s.text ++ s.rest)
  text : s.kind = .url ∨ s.kind = .text ∨ '\\' ∈ s.text ∧ s.kind ≠ .str →
    BalancedText false s.text s.rest
  bracket : 0 < s.level.parens → s.text ≠ [']']
  hole : s.level.parens = 0 → 0 < s.level.holes → s.kind ≠ .semicolon ∧ s.kind ≠ .leftBrace

namespace Level

theorem eq_outside_or (v : Level) : v = outside ∨ 0 < v.parens ∨ v.parens = 0 ∧ 0 < v.holes := by
  obtain ⟨parens, holes⟩ := v
  rcases Nat.eq_zero_or_pos parens with rfl | hparens
  · rcases Nat.eq_zero_or_pos holes with rfl | hholes
    · exact .inl rfl
    · exact .inr (.inr ⟨rfl, hholes⟩)
  · exact .inr (.inl hparens)

/-- Nothing ends an item within parentheses or interpolations. -/
theorem stop?_of_inside {v : Level} (h : 0 < v.parens ∨ 0 < v.holes) (kind : TokenKind) :
    v.stop? kind = none := by
  have hne : v ≠ outside := by
    rintro rfl
    exact h.elim (Nat.lt_irrefl 0) (Nat.lt_irrefl 0)
  exact if_neg hne

end Level

theorem Level.after_of_notMem (v : Level) {kind : TokenKind} (hkind : kind ∉ markKinds) :
    v.after kind = v ∧ v.stop? kind = none := by
  simp only [markKinds, List.mem_cons, List.not_mem_nil, or_false, not_or] at hkind
  unfold after stop?
  split <;> simp_all

theorem balancedText_of_isQuiet {text : List Char} (h : ∀ c ∈ text, isQuiet c = true)
    (rest : List Char) : BalancedText false text rest := by
  induction text with
  | nil => exact .nil
  | cons c text ih =>
    obtain ⟨hc, htext⟩ := List.forall_mem_cons.1 h
    exact .quiet hc (ih htext)

namespace Stretch.IsHarmless

variable {v : Level} {gap : List Char} {kind : TokenKind} {text rest : List Char}

/-- A scan passes over balanced text, which has to be a token that changes no level. -/
theorem itemEndFrom_of_balanced (hbalanced : BalancedText false text rest)
    (hafter : v.after kind = v) (hstop : v.stop? kind = none) :
    itemEndFrom v.parens v.holes (text ++ rest) =
      (v.stop? kind).or (itemEndFrom (v.after kind).parens (v.after kind).holes rest) := by
  rw [hafter, hstop, Option.none_or]
  exact hbalanced.itemEndFrom_eq (by simp)

theorem itemEndFrom_of_notMem (hbalanced : BalancedText false text rest)
    (hkind : kind ∉ markKinds) :
    itemEndFrom v.parens v.holes (text ++ rest) =
      (v.stop? kind).or (itemEndFrom (v.after kind).parens (v.after kind).holes rest) := by
  obtain ⟨hafter, hstop⟩ := v.after_of_notMem hkind
  exact itemEndFrom_of_balanced hbalanced hafter hstop

/-- A semicolon or an opening brace ends an item outside of everything, and is passed over within
parentheses. -/
theorem itemEndFrom_stop? {c : Char}
    (hc : c = ';' ∧ kind = .semicolon ∨ c = '\x7b' ∧ kind = .leftBrace)
    (hhole : v.parens = 0 → 0 < v.holes → False) (rest : List Char) :
    itemEndFrom v.parens v.holes (c :: rest) =
      (v.stop? kind).or (itemEndFrom (v.after kind).parens (v.after kind).holes rest) := by
  have hchar : c = ';' ∨ c = '\x7b' := hc.imp And.left And.left
  have hafter : v.after kind = v := by
    rcases hc with ⟨-, rfl⟩ | ⟨-, rfl⟩ <;> rfl
  rcases v.eq_outside_or with rfl | hparens | ⟨hparens, hholes⟩
  · have hstop : Level.outside.stop? kind = some c := by
      rcases hc with ⟨rfl, rfl⟩ | ⟨rfl, rfl⟩ <;> rfl
    rw [hstop, Option.some_or]
    exact itemEndFrom_stop (by rcases hchar with rfl | rfl <;> simp) rest
  · rw [Level.stop?_of_inside (.inl hparens), Option.none_or, hafter]
    exact itemEndFrom_inside (hchar.imp_right .inl) hparens rest
  · exact (hhole hparens hholes).elim

/-- A closing brace ends an interpolation, or else an item outside of everything. -/
theorem itemEndFrom_rightBrace_token (v : Level) (rest : List Char) :
    itemEndFrom v.parens v.holes ('\x7d' :: rest) = (v.stop? .rightBrace).or
      (itemEndFrom (v.after .rightBrace).parens (v.after .rightBrace).holes rest) := by
  rcases Nat.eq_zero_or_pos v.holes with hzero | hholes
  · rcases v.eq_outside_or with rfl | hparens | ⟨-, hholes⟩
    · exact itemEndFrom_stop (by simp) rest
    · rw [Level.stop?_of_inside (.inl hparens), Option.none_or,
        itemEndFrom_inside (.inr (.inr ⟨rfl, hzero⟩)) hparens]
      simp [Level.after, hzero]
    · omega
  · rw [Level.stop?_of_inside (.inr hholes), Option.none_or]
    exact itemEndFrom_rightBrace hholes rest

theorem itemEndFrom_mark {c : Char} (h : IsHarmless ⟨v, gap, single c, [c], rest⟩)
    (hc : c ∈ itemMarks) :
    itemEndFrom v.parens v.holes ([c] ++ rest) = (v.stop? (single c)).or
      (itemEndFrom (v.after (single c)).parens (v.after (single c)).holes rest) := by
  simp only [itemMarks, List.mem_cons, List.not_mem_nil, or_false] at hc
  have hparen : v.stop? .leftParen = none ∧ v.stop? .rightParen = none := by simp [Level.stop?]
  rw [List.singleton_append]
  rcases hc with rfl | rfl | rfl | rfl | rfl | rfl
  · show _ = (v.stop? .leftParen).or _
    rw [hparen.1, Option.none_or]
    exact itemEndFrom_opening (.inl rfl) rest
  · show _ = (v.stop? .rightParen).or _
    rw [hparen.2, Option.none_or]
    exact itemEndFrom_closing (.inl rfl) rest
  · exact itemEndFrom_stop? (.inl ⟨rfl, rfl⟩) (fun hp hh => (h.hole hp hh).1 rfl) rest
  · exact itemEndFrom_stop? (.inr ⟨rfl, rfl⟩) (fun hp hh => (h.hole hp hh).2 rfl) rest
  · exact itemEndFrom_rightBrace_token v rest
  · have hparens : v.parens = 0 := Nat.eq_zero_of_not_pos fun hpos => h.bracket hpos rfl
    obtain ⟨hafter, hstop⟩ := v.after_of_notMem (show single ']' ∉ markKinds by decide)
    rw [hafter, hstop, Option.none_or, itemEndFrom_closing (.inr rfl), hparens]

/-- What a scan does over a harmless token is told by the kind of the token. -/
theorem itemEndFrom_token (h : IsHarmless ⟨v, gap, kind, text, rest⟩)
    (htoken : ValueToken kind text rest) :
    itemEndFrom v.parens v.holes (text ++ rest) =
      (v.stop? kind).or (itemEndFrom (v.after kind).parens (v.after kind).holes rest) := by
  cases htoken with
  | @string quote string _ hquote hstring =>
    have hbalanced : BalancedText false (quote :: (string ++ [])) rest :=
      .string hquote hstring .nil
    rw [List.append_nil] at hbalanced
    exact itemEndFrom_of_balanced hbalanced rfl (by simp [Level.stop?])
  | block hkind =>
    have hbalanced := h.text (hkind.imp_right .inl)
    have hmark : kind ∉ markKinds := by
      rcases hkind with rfl | rfl <;> decide
    exact itemEndFrom_of_notMem hbalanced hmark
  | quiet hkind htext =>
    have hbalanced : BalancedText false text rest := by
      rcases htext with hescape | hquiet
      · refine h.text (.inr (.inr ⟨hescape, ?_⟩))
        rintro rfl
        exact hkind (by decide)
      · exact balancedText_of_isQuiet hquiet rest
    exact itemEndFrom_of_notMem hbalanced hkind
  | @hash name _ hname hnext =>
    have hbalanced : BalancedText false ('#' :: name) rest := by
      rcases hname with hescape | hquiet
      · exact h.text (.inr (.inr ⟨List.mem_cons_of_mem '#' hescape, by simp⟩))
      · exact .hash hnext (balancedText_of_isQuiet hquiet rest)
    exact itemEndFrom_of_notMem hbalanced (by decide)
  | slash hnext => exact itemEndFrom_of_notMem (.slash hnext .nil) (by decide)
  | interpolation =>
    have hstop : v.stop? .interpolation = none := by simp [Level.stop?]
    rw [hstop, Option.none_or, List.cons_append, List.cons_append, itemEndFrom]
    rfl
  | mark hc => exact h.itemEndFrom_mark hc

end Stretch.IsHarmless

/-- One token: the scan passes the gap and the token. -/
theorem itemEndFrom_next {l l' : Lexer} {t : Token} (hmode : l.mode = .value)
    (hnext : l.next = (.ok (some t), l')) {v : Level}
    (h : Stretch.IsHarmless ⟨v, l.rest.take (l.rest.length - t.source.length), t.kind,
      t.text.toList, l'.rest⟩) :
    l'.mode = .value ∧ itemEndFrom v.parens v.holes l.rest =
      (v.stop? t.kind).or
        (itemEndFrom (v.after t.kind).parens (v.after t.kind).holes l'.rest) := by
  obtain ⟨gap, hrest, hsource, htrivia, htoken, hmode'⟩ := Lexer.next_value hnext hmode
  have hgap : l.rest.take (l.rest.length - t.source.length) = gap := by
    rw [hrest, List.length_append, Nat.add_sub_cancel, List.take_left]
  rw [hgap] at h
  have hbalanced : BalancedText false gap t.source := by
    by_cases hline : ['/', '/'] <:+: gap
    · rw [hsource]
      exact h.gap hline
    · exact htrivia.balanced hline
  refine ⟨hmode', ?_⟩
  rw [hrest, hbalanced.itemEndFrom_eq (by simp), hsource]
  exact h.itemEndFrom_token htoken

theorem itemEndFrom_of_stretches {l : Lexer} (hmode : l.mode = .value) {n : Nat} {v : Level}
    {steps : List Stretch} {c : Char} (h : l.stretches n v = some (steps, c))
    (hsteps : ∀ s ∈ steps, s.IsHarmless) : itemEndFrom v.parens v.holes l.rest = some c := by
  induction n generalizing l v steps with
  | zero => cases h
  | succ n ih =>
    rw [Lexer.stretches] at h
    split at h
    · rename_i t l' hnext
      dsimp only at h
      split at h
      · rename_i c' hstop
        cases h
        obtain ⟨-, hscan⟩ := itemEndFrom_next hmode hnext (hsteps _ List.mem_cons_self)
        rw [hscan, hstop, Option.some_or]
      · rename_i hstop
        obtain ⟨⟨more, c'⟩, hmore, heq⟩ := Option.map_eq_some_iff.1 h
        cases heq
        obtain ⟨hstep, hsteps⟩ := List.forall_mem_cons.1 hsteps
        obtain ⟨hmode', hscan⟩ := itemEndFrom_next hmode hnext hstep
        rw [hscan, hstop, Option.none_or]
        exact ih hmode' hmore hsteps
    · cases h

/-- Looking ahead finds the end of an item that its tokens give, if all of them are harmless. -/
theorem itemEnd_of_stretches {l : Lexer} (hmode : l.mode = .value) {n : Nat}
    {steps : List Stretch} {c : Char} (h : l.stretches n .outside = some (steps, c))
    (hsteps : ∀ s ∈ steps, s.IsHarmless) : itemEnd l.rest = some c :=
  itemEndFrom_of_stretches hmode h hsteps

/-- A url with a semicolon in it, and a comment up to the end of the line with an apostrophe. -/
def urlBeforeComment : Lexer := (Lexer.ofSource "url(x;y)//(z)'\x7b\n;").setMode .value

def urlBeforeCommentSteps : List Stretch :=
  [⟨.outside, [], .url, ['u', 'r', 'l', '(', 'x', ';', 'y', ')'],
      ['/', '/', '(', 'z', ')', '\'', '\x7b', '\n', ';']⟩,
    ⟨.outside, ['/', '/', '(', 'z', ')', '\'', '\x7b', '\n'], .semicolon, [';'], []⟩]

theorem isHarmless_urlBeforeCommentSteps : ∀ s ∈ urlBeforeCommentSteps, s.IsHarmless := by
  rw [urlBeforeCommentSteps, List.forall_mem_cons, List.forall_mem_singleton]
  constructor
  · have hparens : BalancedText false ('(' :: (['x', ';', 'y'] ++ ')' :: []))
        ['/', '/', '(', 'z', ')', '\'', '\x7b', '\n', ';'] :=
      .brackets (.inl rfl) (.inl rfl)
        (.quiet (by decide) (.stop (.inl rfl) (.quiet (by decide) .nil))) .nil
    refine ⟨by simp, fun _ => ?_, by simp [Level.outside], by simp⟩
    exact .quiet (by decide) (.quiet (by decide) (.quiet (by decide) hparens))
  · have hline : BalancedText false ('\'' :: (['\x7b'] ++ '\n' :: [])) [';'] :=
      .apostrophe (by decide) (List.forall_mem_singleton.2 (by decide)) .nil
    have hparens : BalancedText false ('(' :: (['z'] ++ ')' :: ['\'', '\x7b', '\n'])) [';'] :=
      .brackets (.inl rfl) (.inl rfl) (.quiet (by decide) .nil) hline
    refine ⟨fun _ => ?_, by simp, by simp [Level.outside], by simp [Level.outside]⟩
    exact .slash (by decide) (.slash (by decide) hparens)

theorem itemEnd_after_url_and_comment :
    urlBeforeComment.stretches 2 .outside = some (urlBeforeCommentSteps, ';') ∧
      itemEnd urlBeforeComment.rest = some ';' := by
  have hsteps : urlBeforeComment.stretches 2 .outside = some (urlBeforeCommentSteps, ';') := by
    decide +kernel
  exact ⟨hsteps, itemEnd_of_stretches rfl hsteps isHarmless_urlBeforeCommentSteps⟩

/-- A brace in a comment up to the end of a line, in an escape, a url, brackets, an interpolation,
and after a stray bracket. -/
def hiddenBraces : List String :=
  ["c //\x7b\n;", "c\\\x7b;", "url(]\x7b);", "[)\x7b];", "#\x7ba\x7b\x7d;", "(]\x7b);"]

/-- The tokens end each of the items at its semicolon, the scan at the brace before. -/
theorem itemEnd_differs :
    hiddenBraces.map (fun source =>
        ((((Lexer.ofSource source).setMode .value).stretches 5 .outside).map Prod.snd,
          itemEnd source.toList)) =
      List.replicate 6 (some ';', some '\x7b') := by
  decide +kernel

end Stylesheet
