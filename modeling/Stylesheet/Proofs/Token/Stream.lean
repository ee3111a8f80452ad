import Stylesheet.Proofs.Token.Grammar
import Stylesheet.Proofs.Token.Reading

/-!
# Readers before tokens

What a reader does in one mode hangs only on the kinds and texts of the tokens that its lexer will
give, and on whether white space stands before them. Whether the first of them was read ahead makes
no difference.

* `Spelling`: what reading sees of a token.
* `Lexer.Yields`: the tokens that a lexer gives up to the end.
* `Reader.Holds`: the tokens before a reader, the one read ahead included.
* `Reader.Holds.runs_peek`, `Reader.Holds.runs_next`, …: the steps of a reader.
-/

namespace Stylesheet

/-- What reading sees of a token. -/
structure Spelling where
  kind : TokenKind
  text : String
  spaced : Bool

def Token.spelling (t : Token) : Spelling := ⟨t.kind, t.text, t.spaceBefore⟩

/-! ## Lexers -/

namespace Lexer

theorem pass_zero {l : Lexer} (hspace : l.spaceDue = false) : l.pass 0 = l := by
  obtain ⟨rest, offset, position, mode, last, unitDue, spaceDue⟩ := l
  obtain rfl : spaceDue = false := hspace
  rfl

/-- At the end a lexer stays where it is. -/
theorem next_of_end {l l' : Lexer} (h : l.next = (.ok none, l')) : l'.next = (.ok none, l') := by
  obtain ⟨-, heq⟩ | ⟨hunit, gap, -, ⟨hrest, -, rfl⟩ | ⟨_, _, _, _, -, -, heq⟩⟩ := next_ok h
  · cases heq
  · have hdue : (l.pass gap).unitDue = false := hunit
    have hgap : Lexeme.gapLength ((l.pass gap).mode != .block) 0 (l.pass gap).rest = .ok 0 := by
      rw [hrest, Lexeme.gapLength]
    have hskip : ((l.pass gap).skip 0).rest = [] := hrest
    unfold next
    rw [hdue, hgap]
    simp only [Bool.false_eq_true, if_false]
    split
    · exact congrArg (Prod.mk _) (pass_zero rfl)
    · rename_i hcons
      cases hskip.symm.trans hcons
  · cases heq

/-- The tokens that a lexer gives, up to the end. -/
inductive Yields : Lexer → List Spelling → Prop
  | nil {l l' : Lexer} (h : l.next = (.ok none, l')) : Yields l []
  | cons {l l' : Lexer} {t : Token} {ps : List Spelling} (h : l.next = (.ok (some t), l'))
      (hrest : Yields l' ps) : Yields l (t.spelling :: ps)

end Lexer

/-- The tokens before a reader. -/
inductive Reader.Holds : Reader → List Spelling → Prop
  | fresh {r : Reader} {ps : List Spelling} (hahead : r.ahead = none) (h : r.lexer.Yields ps) :
      Reader.Holds r ps
  | ahead {r : Reader} {t : Token} {ps : List Spelling} (hahead : r.ahead = some t)
      (h : r.lexer.Yields ps) : Reader.Holds r (t.spelling :: ps)

/-! ## Readers -/

namespace Reading

/-- Peeking again changes nothing. -/
theorem peek_peek {r r' : Reader} {t : Option Token} (h : peek r = .ok (t, r')) :
    peek r' = .ok (t, r') := by
  unfold peek at h
  split at h
  · rename_i ahead hahead
    cases h
    rw [peek, hahead]
  · split at h
    · cases h
    · rename_i l hnext
      cases h
      cases t with
      | some t => rfl
      | none => rw [peek, Lexer.next_of_end hnext]

end Reading

namespace Reader.Holds

open Reading

variable {r : Reader} {p : Spelling} {ps : List Spelling}

theorem runs_peek (h : r.Holds ps) {Q : Option Token → Reader → Prop}
    (hQ : ∀ (t : Option Token) (r' : Reader), t.map Token.spelling = ps.head? → r'.Holds ps →
      Q t r') : Runs peek r Q := by
  cases h with
  | fresh hahead h =>
    cases h with
    | @nil _ l hnext =>
      refine ⟨none, { r with lexer := l, ahead := none }, ?_, hQ none _ rfl (.fresh rfl ?_)⟩
      · rw [peek, hahead, hnext]
      · exact .nil (Lexer.next_of_end hnext)
    | @cons _ l t ps hnext hrest =>
      refine ⟨some t, { r with lexer := l, ahead := some t }, ?_, hQ _ _ rfl (.ahead rfl hrest)⟩
      rw [peek, hahead, hnext]
  | @ahead t ps hahead h =>
    refine ⟨some t, r, ?_, hQ _ r rfl (.ahead hahead h)⟩
    rw [peek, hahead]

theorem runs_next (h : r.Holds ps) {Q : Option Token → Reader → Prop}
    (hQ : ∀ (t : Option Token) (r' : Reader), t.map Token.spelling = ps.head? → r'.Holds ps.tail →
      Q t r') : Runs next r Q := by
  cases h with
  | fresh hahead h =>
    cases h with
    | @nil _ l hnext =>
      refine ⟨none, { r with lexer := l }, ?_, hQ none _ rfl (.fresh hahead ?_)⟩
      · rw [next, hahead, hnext]
      · exact .nil (Lexer.next_of_end hnext)
    | @cons _ l t ps hnext hrest =>
      refine ⟨some t, { r with lexer := l }, ?_, hQ _ _ rfl (.fresh hahead hrest)⟩
      rw [next, hahead, hnext]
  | @ahead t ps hahead h =>
    refine ⟨some t, { r with ahead := none }, ?_, hQ _ _ rfl (.fresh rfl h)⟩
    rw [next, hahead]

theorem runs_peekKind (h : r.Holds ps) {Q : Option TokenKind → Reader → Prop}
    (hQ : ∀ r' : Reader, r'.Holds ps → Q (ps.head?.map Spelling.kind) r') : Runs peekKind r Q := by
  refine runs_bind (h.runs_peek fun t r' ht hr' => runs_pure ?_)
  have hkind : t.map Token.kind = ps.head?.map Spelling.kind := by
    rw [← ht, Option.map_map]
    rfl
  rw [hkind]
  exact hQ r' hr'

theorem runs_skip (h : r.Holds (p :: ps)) {Q : Unit → Reader → Prop}
    (hQ : ∀ r' : Reader, r'.Holds ps → Q () r') : Runs skip r Q :=
  runs_bind (h.runs_next fun _ r' _ hr' => runs_pure (hQ r' hr'))

theorem runs_require (h : r.Holds (p :: ps)) (reading : Construct) {Q : Token → Reader → Prop}
    (hQ : ∀ (t : Token) (r' : Reader), t.spelling = p → r'.Holds ps → Q t r') :
    Runs (require reading) r Q := by
  refine runs_bind (h.runs_next fun t r' ht hr' => ?_)
  cases t with
  | none => cases ht
  | some t => exact runs_pure (hQ t r' (Option.some.inj ht) hr')

theorem runs_expect (h : r.Holds (p :: ps)) {kind : TokenKind} (hkind : p.kind = kind)
    (reading : Construct) {Q : Token → Reader → Prop}
    (hQ : ∀ (t : Token) (r' : Reader), r'.Holds ps → Q t r') :
    Runs (expect kind reading) r Q := by
  refine runs_bind (h.runs_require reading fun t r' ht hr' => ?_)
  have htoken : t.kind = kind := (congrArg Spelling.kind ht).trans hkind
  rw [if_pos htoken]
  exact runs_pure (hQ t r' hr')

end Reader.Holds

end Stylesheet
