import Stylesheet.Proofs.Text.Lines
import Stylesheet.Proofs.Token.Grammar

/-!
# Tokens tile the source

However the mode changes between two tokens, a lexer passes over a gap and gives what stands behind
it: tokens and the gaps before them follow each other without anything left out or read twice.

* `Lexer.HasRead`: a lexer behind a text; `Lexer.next_token`, `Lexer.next_end`, `Lexer.next_error`:
  what its next step gives.
* `Lexer.run`: a lexer that is asked for tokens and to change its mode.
* `Tiles`: tokens with the gaps before them, up to where a run ended.
* `tokens_tile_source`: the tokens of every run tile the source.
-/

namespace Stylesheet

open Lexeme

/-! ## Lexemes are not empty -/

namespace Lexeme

theorem le_nameLength (n : Nat) (cs : List Char) : n ≤ nameLength n cs := by
  fun_induction nameLength n cs with
  | case1 n => exact Nat.le_refl n
  | case2 n => exact Nat.le_succ n
  | case3 n c cs ih => omega
  | case4 n c cs _ _ _ ih => omega
  | case5 n c cs _ _ _ => exact Nat.le_refl n

theorem nameLength_pos {c : Char} (hc : isIdentStart c = true) (cs : List Char) :
    0 < nameLength 0 (c :: cs) := by
  by_cases hescape : c = '\\'
  · subst hescape
    cases cs with
    | nil => simp [nameLength]
    | cons d cs =>
      rw [nameLength]
      exact Nat.lt_of_lt_of_le Nat.two_pos (le_nameLength _ cs)
  · have hname : isNameChar c = true := by
      simp only [isIdentStart, Bool.or_eq_true, beq_iff_eq] at hc
      simp only [isNameChar, Bool.or_eq_true, beq_iff_eq]
      rcases hc with ((hc | hc) | hc) | hc
      · simp [hc]
      · simp [hc]
      · exact absurd hc hescape
      · simp [hc]
    unfold nameLength
    split
    · simp_all
    · simp_all
    · simp_all
    · rename_i heq
      cases heq
      rw [if_pos hname]
      exact Nat.lt_of_lt_of_le Nat.one_pos (le_nameLength _ cs)

theorem urlEnd_lt {start n m : Nat} {cs : List Char} (h : urlEnd start n cs = .ok m) : n < m := by
  fun_induction urlEnd start n cs with
  | case1 => cases h
  | case2 => cases h
  | case3 n c cs hquote k hstring ih =>
    obtain ⟨string, rest, -, hk, -⟩ := stringEnd_ok hstring
    have hlt := ih h
    omega
  | case4 n cs hquote =>
    cases h
    omega
  | case5 n c cs hquote hclose ih =>
    have hlt := ih h
    omega

theorem identLexeme_pos {c : Char} {cs : List Char} {kind : TokenKind} {n : Nat}
    (hc : isIdentStart c = true) (h : identLexeme (c :: cs) = .ok (kind, n)) : 0 < n := by
  simp only [identLexeme] at h
  split at h
  · have hlt := urlEnd_lt (kind_of_map h).2
    omega
  · cases h
    exact nameLength_pos hc cs

theorem valueLexeme_pos {signed : Bool} {c : Char} {cs : List Char} {kind : TokenKind} {n : Nat}
    (h : valueLexeme signed c cs = .ok (kind, n)) : 0 < n := by
  have hname := le_nameLength 1 cs
  unfold valueLexeme at h
  repeat' split at h
  · cases h
  · rename_i hcomment
    cases h
    obtain ⟨text, rest, -, hn, -⟩ := commentEnd_eq_some hcomment
    omega
  · obtain ⟨string, rest, -, hn, -⟩ := stringEnd_ok (kind_of_map h).2
    omega
  · cases h
    omega
  · cases h
    omega
  · cases h
    omega
  · rename_i hnumber
    cases h
    simp only [startsNumber, bne_iff_ne] at hnumber
    omega
  · cases h
    omega
  · cases h
    omega
  · cases h
    omega
  · cases h
    omega
  · obtain ⟨text, rest, -, hn, -⟩ := bracketEnd_ok (kind_of_map h).2
    omega
  · cases h
    omega
  · rename_i hstart
    exact identLexeme_pos hstart h
  · cases h
    omega

theorem selectorLexeme_pos {c : Char} {cs : List Char} {kind : TokenKind} {n : Nat}
    (hgap : ¬ StartsGap true (c :: cs)) (h : selectorLexeme c cs = .ok (kind, n)) : 0 < n := by
  obtain ⟨text, rest, htext, rfl, htoken⟩ := selectorLexeme_ok h
  rw [List.length_pos_iff]
  rintro rfl
  rw [List.nil_append] at htext
  subst htext
  exact hgap htoken.startsGap

theorem unitLength_pos {cs : List Char} (h : startsUnit cs = true) : 0 < unitLength cs := by
  cases cs with
  | nil => cases h
  | cons c cs =>
    unfold unitLength
    split
    · exact Nat.one_pos
    · rename_i hpercent
      have hne : c ≠ '%' := fun hc => hpercent (by rw [List.head?_cons, hc])
      have hletter : isLetter c = true := by simpa [startsUnit, hne] using h
      exact nameLength_pos (by simp [isIdentStart, hletter]) cs

end Lexeme

/-- A token behind `before`. -/
structure Token.Behind (t : Token) (before : List Char) : Prop where
  offset : t.offset = Lexer.byteLength before
  position : t.position = Position.start.advance before

namespace Lexer

theorem lexeme_pos {l : Lexer} {spaceBefore : Bool} {c : Char} {cs : List Char} {kind : TokenKind}
    {n : Nat} (hgap : ¬ StartsGap (l.mode != .block) (c :: cs))
    (h : l.lexeme spaceBefore c cs = .ok (kind, n)) : 0 < n := by
  unfold lexeme at h
  split at h
  · rename_i hmode
    rw [hmode] at hgap
    exact selectorLexeme_pos hgap h
  · exact valueLexeme_pos h
  · exact valueLexeme_pos h

/-! ## Lexers behind a text -/

theorem byteLength_append (a b : List Char) :
    byteLength (a ++ b) = byteLength a + byteLength b := by
  induction a with
  | nil => simp [byteLength]
  | cons c a ih =>
    simp only [byteLength, List.cons_append, List.foldr_cons] at ih ⊢
    omega

theorem byteLength_eq (text : List Char) : byteLength text = (String.ofList text).utf8ByteSize := by
  induction text with
  | nil => rfl
  | cons c text ih =>
    have hcons : String.ofList (c :: text) = String.singleton c ++ String.ofList text := by
      rw [← List.singleton_append, String.ofList_append, String.singleton_eq_ofList]
    rw [hcons, String.utf8ByteSize_append, String.utf8ByteSize_singleton, ← ih]
    rfl

/-- A lexer that has read `before`. -/
structure HasRead (l : Lexer) (before : List Char) : Prop where
  offset : l.offset = byteLength before
  position : l.position = Position.start.advance before
  unitDue : l.unitDue = true → startsUnit l.rest = true

theorem hasRead_ofSource (source : String) : (ofSource source).HasRead [] :=
  ⟨rfl, rfl, fun h => by cases h⟩

variable {l l' : Lexer} {before : List Char}

theorem HasRead.setMode (h : l.HasRead before) (mode : LexicalMode) :
    (l.setMode mode).HasRead before :=
  ⟨h.offset, h.position, h.unitDue⟩

theorem HasRead.pass (h : l.HasRead before) (gap : Nat) (hunit : l.unitDue = false) :
    (l.pass gap).HasRead (before ++ l.rest.take gap) := by
  refine ⟨?_, ?_, fun hdue => ?_⟩
  · rw [byteLength_append, ← h.offset]
    rfl
  · rw [Position.advance_append, ← h.position]
    rfl
  · have hdue : l.unitDue = true := hdue
    rw [hunit] at hdue
    cases hdue

theorem HasRead.emit (h : l.HasRead before) (kind : TokenKind) (n : Nat) (spaceBefore : Bool) :
    (l.emit kind n spaceBefore).1.Behind before ∧
      (l.emit kind n spaceBefore).2.HasRead (before ++ l.rest.take n) := by
  refine ⟨⟨h.offset, h.position⟩, ?_, ?_, fun hdue => ?_⟩
  · rw [byteLength_append, ← h.offset]
    rfl
  · rw [Position.advance_append, ← h.position]
    rfl
  · simp only [Lexer.emit, Bool.and_eq_true] at hdue
    exact hdue.2

/-- A token and the gap that a lexer passes before it. -/
structure Gives (l : Lexer) (before : List Char) (t : Token) (l' : Lexer) (gap : List Char) :
    Prop where
  rest : l.rest = gap ++ t.source
  source : t.source = t.text.toList ++ l'.rest
  text : t.text.toList ≠ []
  trivia : Trivia (l.mode != .block) t.source gap
  behind : t.Behind (before ++ gap)
  hasRead : l'.HasRead (before ++ (gap ++ t.text.toList))
  mode : l'.mode = l.mode
  spaceBefore : l.spaceDue = false → t.spaceBefore = !gap.isEmpty
  spaceDue : l.spaceDue = false → l'.spaceDue = false

theorem gives_emit {l : Lexer} (hl : l.HasRead before) (kind : TokenKind) {n : Nat}
    (hn : 0 < n) (hrest : l.rest ≠ []) (spaceBefore : Bool)
    (hspace : l.spaceDue = false → spaceBefore = false) :
    l.Gives before (l.emit kind n spaceBefore).1 (l.emit kind n spaceBefore).2 [] where
  rest := rfl
  source := by simp [Lexer.emit, skip]
  text := by
    have hne : l.rest.take n ≠ [] := by
      simp only [ne_eq, List.take_eq_nil_iff, hrest, or_false]
      omega
    simpa [Lexer.emit] using hne
  trivia := .nil
  behind := by
    rw [List.append_nil]
    exact (hl.emit kind n spaceBefore).1
  hasRead := by
    have hread := (hl.emit kind n spaceBefore).2
    simpa [Lexer.emit] using hread
  mode := rfl
  spaceBefore := hspace
  spaceDue h := h

/-- The next token of a lexer stands behind a gap, and the lexer stops behind the token. -/
theorem next_token (hl : l.HasRead before) {t : Token} (h : l.next = (.ok (some t), l')) :
    ∃ gap, l.Gives before t l' gap := by
  obtain ⟨hunit, heq⟩ | ⟨hunit, n, hn, ⟨-, hnone, -⟩ | ⟨c, cs, kind, k, hrest, hlexeme, heq⟩⟩ :=
    next_ok h
  · cases heq
    have hstarts := hl.unitDue hunit
    have hne : l.rest ≠ [] := fun hnil => by simp [hnil, startsUnit] at hstarts
    exact ⟨[], gives_emit hl .unit (unitLength_pos hstarts) hne false fun _ => rfl⟩
  · cases hnone
  · obtain ⟨gap, rest, hsplit, hlength, htrivia, hend⟩ := gapLength_trivia hn
    obtain rfl : n = gap.length := by omega
    have hpass : (l.pass gap.length).rest = rest := by
      show l.rest.drop gap.length = rest
      rw [hsplit, List.drop_left]
    have htake : l.rest.take gap.length = gap := by rw [hsplit, List.take_left]
    have hread := hl.pass gap.length hunit
    rw [htake] at hread
    rw [hpass] at hrest
    have hpos : 0 < k := lexeme_pos (hrest ▸ hend) hlexeme
    have hne : (l.pass gap.length).rest ≠ [] := by simp [hpass, hrest]
    have hgives := gives_emit hread kind hpos hne false fun _ => rfl
    cases heq
    refine ⟨gap, ?_, hgives.source, hgives.text, ?_, ?_, ?_, rfl, ?_, ?_⟩
    · show l.rest = gap ++ (l.pass gap.length).rest
      rw [hpass, hsplit]
    · show Trivia (l.mode != .block) (l.pass gap.length).rest gap
      rw [hpass]
      exact htrivia
    · have hbehind := hgives.behind
      rw [List.append_nil] at hbehind
      exact ⟨hbehind.offset, hbehind.position⟩
    · have hread' := hgives.hasRead
      rw [List.nil_append, List.append_assoc] at hread'
      exact hread'
    · intro hspace
      show (l.spaceDue || gap.length != 0) = !gap.isEmpty
      rw [hspace]
      cases gap <;> rfl
    · intro _
      rfl

/-- At the end a lexer has passed all that was left. -/
theorem next_end (hl : l.HasRead before) (h : l.next = (.ok none, l')) :
    Trivia (l.mode != .block) [] l.rest ∧ l'.rest = [] ∧ l'.HasRead (before ++ l.rest) := by
  obtain ⟨-, heq⟩ | ⟨hunit, n, hn, ⟨hrest, -, rfl⟩ | ⟨c, cs, kind, k, -, -, heq⟩⟩ := next_ok h
  · cases heq
  · obtain ⟨gap, rest, hsplit, hlength, htrivia, -⟩ := gapLength_trivia hn
    obtain rfl : n = gap.length := by omega
    have hpass : (l.pass gap.length).rest = rest := by
      show l.rest.drop gap.length = rest
      rw [hsplit, List.drop_left]
    obtain rfl : rest = [] := hpass.symm.trans hrest
    rw [List.append_nil] at hsplit
    have hread := hl.pass gap.length hunit
    rw [hsplit, List.take_length] at hread
    rw [hsplit]
    exact ⟨htrivia, hrest, hread⟩
  · cases heq

theorem fail_position (hl : l.HasRead before) {unfinished : Unfinished} {e : SyntaxError}
    (h : l.fail unfinished = (.error e, l')) :
    e.lines = [] ∧ ∃ p, p <+: l.rest ∧ e.position = Position.start.advance (before ++ p) := by
  cases h
  refine ⟨rfl, l.rest.take unfinished.start, List.take_prefix _ _, ?_⟩
  rw [Position.advance_append, ← hl.position]

/-- An error is reported for a place in what was left. -/
theorem next_error (hl : l.HasRead before) {e : SyntaxError} (h : l.next = (.error e, l')) :
    e.lines = [] ∧ ∃ p, p <+: l.rest ∧ e.position = Position.start.advance (before ++ p) := by
  unfold next at h
  split at h
  · cases h
  · rename_i hunit
    split at h
    · exact fail_position hl h
    · rename_i n hn
      simp only at h
      split at h
      · cases h
      · split at h
        · obtain ⟨hlines, p, ⟨rest, hp⟩, hposition⟩ :=
            fail_position (hl.pass n (Bool.eq_false_iff.2 hunit)) h
          have hp : p ++ rest = l.rest.drop n := hp
          refine ⟨hlines, l.rest.take n ++ p, ⟨rest, ?_⟩, ?_⟩
          · rw [List.append_assoc, hp, List.take_append_drop]
          · rw [hposition, List.append_assoc]
        · cases h

/-! ## Runs -/

/-- What a lexer is asked: to give its next token, or to go on in another mode. -/
inductive Request where
  | next
  | mode (mode : LexicalMode)

/-- How a run ends. -/
inductive Ending where
  /-- Nothing more was asked. -/
  | open
  /-- No token was left, when one was asked for in a mode. -/
  | atEnd (mode : LexicalMode)
  | failed (e : SyntaxError)

/-- The tokens that a lexer gives up to the end or the first error, each with the mode in which it
was asked for. -/
def run (l : Lexer) : List Request → List (LexicalMode × Token) × Ending
  | [] => ([], .open)
  | .mode mode :: requests => (l.setMode mode).run requests
  | .next :: requests =>
    match l.next with
    | (.error e, _) => ([], .failed e)
    | (.ok none, _) => ([], .atEnd l.mode)
    | (.ok (some t), l') => ((l.mode, t) :: (l'.run requests).1, (l'.run requests).2)

end Lexer

/-! ## Tilings -/

/-- A token that stands behind the text `before` and a gap. -/
structure Token.Follows (t : Token) (before gap : List Char) : Prop where
  text : t.text ≠ ""
  offset : t.offset = (String.ofList (before ++ gap)).utf8ByteSize
  line : t.position.line = 1 + (before ++ gap).count '\n'
  column : t.position.column = 1 + ((before ++ gap).rtakeWhile (· != '\n')).length
  spaceBefore : t.spaceBefore = true ↔ gap ≠ []

/-- Behind the text `before` the tokens and the gaps before them follow each other, with the rest of
the text left over where the run ended. A run that came to the end leaves a gap only. -/
inductive Tiles : (before rest : List Char) → List (LexicalMode × Token) → Lexer.Ending → Prop
  | open (before rest : List Char) : Tiles before rest [] .open
  | failed (before rest : List Char) (e : SyntaxError) : Tiles before rest [] (.failed e)
  | atEnd {before gap : List Char} {mode : LexicalMode} (hgap : Trivia (mode != .block) [] gap) :
      Tiles before gap [] (.atEnd mode)
  | token {before gap rest : List Char} {mode : LexicalMode} {t : Token}
      {tokens : List (LexicalMode × Token)} {ending : Lexer.Ending}
      (hgap : Trivia (mode != .block) (t.text.toList ++ rest) gap) (ht : t.Follows before gap)
      (h : Tiles (before ++ (gap ++ t.text.toList)) rest tokens ending) :
      Tiles before (gap ++ (t.text.toList ++ rest)) ((mode, t) :: tokens) ending

theorem Lexer.Gives.follows {l l' : Lexer} {before gap : List Char} {t : Token}
    (h : l.Gives before t l' gap) (hspace : l.spaceDue = false) : t.Follows before gap where
  text := by simpa using h.text
  offset := by rw [← byteLength_eq, h.behind.offset]
  line := by rw [h.behind.position, Position.advance_start]
  column := by rw [h.behind.position, Position.advance_start]
  spaceBefore := by
    rw [h.spaceBefore hspace]
    cases gap <;> simp

theorem Lexer.tiles_run {l : Lexer} {before : List Char} (hl : l.HasRead before)
    (hspace : l.spaceDue = false) (requests : List Lexer.Request) :
    Tiles before l.rest (l.run requests).1 (l.run requests).2 := by
  induction requests generalizing l before with
  | nil => exact .open before l.rest
  | cons request requests ih =>
    cases request with
    | mode mode => exact ih (hl.setMode mode) hspace
    | next =>
      rw [run]
      split
      · exact .failed before l.rest _
      · rename_i hnext
        exact .atEnd (next_end hl hnext).1
      · rename_i t l' hnext
        obtain ⟨gap, hgives⟩ := next_token hl hnext
        have htrivia := hgives.trivia
        rw [hgives.source] at htrivia
        rw [hgives.rest, hgives.source]
        exact .token htrivia (hgives.follows hspace) (ih hgives.hasRead (hgives.spaceDue hspace))

theorem Tiles.le_offset {before rest : List Char} {tokens : List (LexicalMode × Token)}
    {ending : Lexer.Ending} (h : Tiles before rest tokens ending) :
    ∀ token ∈ tokens, (String.ofList before).utf8ByteSize ≤ token.2.offset := by
  induction h with
  | «open» | failed | atEnd => simp
  | token _ ht _ ih =>
    intro token hmem
    rcases List.mem_cons.1 hmem with rfl | hmem
    · simp only [ht.offset, String.ofList_append, String.utf8ByteSize_append]
      omega
    · have hle := ih token hmem
      simp only [String.ofList_append, String.utf8ByteSize_append] at hle
      omega

theorem Tiles.pairwise {before rest : List Char} {tokens : List (LexicalMode × Token)}
    {ending : Lexer.Ending} (h : Tiles before rest tokens ending) :
    tokens.Pairwise fun s t => s.2.offset + s.2.text.utf8ByteSize ≤ t.2.offset := by
  induction h with
  | «open» | failed | atEnd => exact .nil
  | token _ ht h ih =>
    refine .cons (fun token hmem => ?_) ih
    have hle := h.le_offset token hmem
    simp only [ht.offset, String.ofList_append, String.utf8ByteSize_append, String.ofList_toList]
      at hle ⊢
    omega

theorem Tiles.stands {before rest : List Char} {tokens : List (LexicalMode × Token)}
    {ending : Lexer.Ending} (h : Tiles before rest tokens ending) :
    ∀ token ∈ tokens, ∃ p, p ++ token.2.text.toList <+: before ++ rest ∧
      token.2.offset = (String.ofList p).utf8ByteSize := by
  induction h with
  | «open» | failed | atEnd => simp
  | @token before gap rest mode t tokens ending _ ht _ ih =>
    intro token hmem
    rcases List.mem_cons.1 hmem with rfl | hmem
    · exact ⟨before ++ gap, ⟨rest, by simp⟩, ht.offset⟩
    · have hlater := ih token hmem
      simpa using hlater

/-- Whatever tokens and modes a lexer is asked for, the tokens that it gives and the gaps before them
tile the source: each token is what the source holds from its offset on, they stand in the order of
the source, and they do not overlap. -/
theorem tokens_tile_source (source : String) (requests : List Lexer.Request) :
    Tiles [] source.toList ((Lexer.ofSource source).run requests).1
        ((Lexer.ofSource source).run requests).2 ∧
      (∀ token ∈ ((Lexer.ofSource source).run requests).1, ∃ p,
        p ++ token.2.text.toList <+: source.toList ∧
          token.2.offset = (String.ofList p).utf8ByteSize) ∧
      ((Lexer.ofSource source).run requests).1.Pairwise fun s t =>
        s.2.offset + s.2.text.utf8ByteSize ≤ t.2.offset := by
  have htiles := Lexer.tiles_run (Lexer.hasRead_ofSource source) rfl requests
  exact ⟨htiles, htiles.stands, htiles.pairwise⟩

end Stylesheet
