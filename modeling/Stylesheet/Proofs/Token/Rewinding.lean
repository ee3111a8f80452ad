import Stylesheet.Proofs.Token.Progress

/-!
# Going back to a token

A token records all that its lexeme hung on besides the text: the kind of the token before it and
whether white space came first. So a lexer that goes back to a token, however far it has gone on
since, reads it again in the same mode as it did before, and goes on from there in the same way.

* `Lexer.next_rewind`: a token is read again from anywhere.
* `Lexer.Trail`: a lexer that is asked for tokens, for other modes and to go back.
* `Lexer.Trail.Sound`: what holds along every trail; `Lexer.Trail.Sound.move`: one step of it.
* `rewinding_undoes_lexing`: going back to a token of a trail.
-/

namespace Stylesheet

open Lexeme

/-- Behind a gap there is nothing more of it. -/
theorem Lexeme.gapLength_of_not_startsGap {comments : Bool} {cs : List Char}
    (h : ¬ StartsGap comments cs) (n : Nat) : gapLength comments n cs = .ok n := by
  cases cs with
  | nil => rw [gapLength]
  | cons c cs =>
    simp only [StartsGap, not_or] at h
    obtain ⟨hblank, hline, hcomment⟩ := h
    rw [gapLength, if_neg hblank, if_neg hline, if_neg hcomment]

/-- The text behind some others starts after their bytes. -/
theorem afterBytes_byteLength (before rest : List Char) :
    afterBytes (Lexer.byteLength before) (before ++ rest) = rest := by
  induction before with
  | nil =>
    show afterBytes 0 rest = rest
    rw [afterBytes]
  | cons c before ih =>
    have hlength : Lexer.byteLength (c :: before) = c.utf8Size + Lexer.byteLength before := rfl
    obtain ⟨n, hn⟩ : ∃ n, c.utf8Size + Lexer.byteLength before = n + 1 := by
      have hpos := c.utf8Size_pos
      exact ⟨c.utf8Size + Lexer.byteLength before - 1, by omega⟩
    rw [hlength, hn, List.cons_append, afterBytes, ← hn, Nat.add_sub_cancel_left, ih]

namespace Lexer

/-! ## One token again -/

/-- Behind a gap a lexer gives what stands there. -/
theorem next_of_lexeme {l : Lexer} {gap n : Nat} {kind : TokenKind} {c : Char} {cs : List Char}
    (hunit : l.unitDue = false) (hgap : gapLength (l.mode != .block) 0 l.rest = .ok gap)
    (hrest : (l.pass gap).rest = c :: cs)
    (hlexeme : (l.pass gap).lexeme (l.spaceDue || gap != 0) c cs = .ok (kind, n)) :
    l.next = (.ok (some ((l.pass gap).emit kind n (l.spaceDue || gap != 0)).1),
      ((l.pass gap).emit kind n (l.spaceDue || gap != 0)).2) := by
  unfold next
  rw [hunit, hgap]
  simp only [Bool.false_eq_true, if_false]
  split
  · rename_i hnil
    cases hnil.symm.trans hrest
  · rename_i d ds hcons
    cases hcons.symm.trans hrest
    split
    · rename_i herror
      cases herror.symm.trans hlexeme
    · rename_i hok
      cases hok.symm.trans hlexeme
      rfl

/-- A lexer that goes back to a token stands as it did behind the gap before it. -/
theorem pass_zero_rewind {l : Lexer} (hunit : l.unitDue = false) (m : Lexer) (gap n : Nat)
    (kind : TokenKind) (spaceBefore : Bool) :
    ((m.rewind ((l.pass gap).emit kind n spaceBefore).1).setMode l.mode).pass 0 = l.pass gap := by
  simp [pass, skip, emit, rewind, setMode, byteLength, hunit]

/-- A token that is no unit is read again from anywhere, and leaves the lexer as it did before. -/
theorem next_rewind {l l' : Lexer} {t : Token} (h : l.next = (.ok (some t), l'))
    (hkind : t.kind ≠ .unit) (m : Lexer) :
    ((m.rewind t).setMode l.mode).next = (.ok (some t), l') := by
  obtain ⟨-, heq⟩ | ⟨hunit, gap, hgap, ⟨-, hnone, -⟩ | ⟨c, cs, kind, n, hrest, hlexeme, heq⟩⟩ :=
    next_ok h
  · cases heq
    exact absurd rfl hkind
  · cases hnone
  · obtain ⟨passed, rest, hsplit, hlength, -, hend⟩ := gapLength_ok hgap
    have hpass : (l.pass gap).rest = rest := by
      show l.rest.drop gap = rest
      rw [hsplit, hlength, Nat.zero_add, List.drop_left]
    generalize (l.spaceDue || gap != 0) = spaceBefore at hlexeme heq
    obtain ⟨rfl, rfl⟩ : t = ((l.pass gap).emit kind n spaceBefore).1 ∧
        l' = ((l.pass gap).emit kind n spaceBefore).2 := by
      cases heq
      exact ⟨rfl, rfl⟩
    have hstart := pass_zero_rewind hunit m gap n kind spaceBefore
    generalize hagain : (m.rewind ((l.pass gap).emit kind n spaceBefore).1).setMode l.mode = again
      at hstart ⊢
    have hdue : again.unitDue = false := by
      rw [← hagain]
      rfl
    -- The gap was passed when the token was first read, so there is none before it now.
    have hzero : gapLength (again.mode != .block) 0 again.rest = .ok 0 := by
      rw [← hagain]
      exact gapLength_of_not_startsGap (hpass ▸ hend) 0
    have hspace : (again.spaceDue || (0 : Nat) != 0) = spaceBefore := by
      rw [← hagain]
      exact Bool.or_false spaceBefore
    have hlexeme : (again.pass 0).lexeme (again.spaceDue || (0 : Nat) != 0) c cs = .ok (kind, n) := by
      rw [hstart, hspace, hlexeme]
    rw [next_of_lexeme hdue hzero (by rw [hstart, hrest]) hlexeme, hspace, hstart]

/-! ## Trails -/

/-- A token that was given, with the mode it was asked for in and the lexer right after it. -/
structure Given where
  token : Token
  mode : LexicalMode
  after : Lexer

/-- What a lexer may be asked for. -/
inductive Move where
  | next
  | mode (mode : LexicalMode)
  /-- To go back to a token, by its place among those that were given. -/
  | rewind (i : Nat)

/-- A lexer and all that it has given so far. -/
structure Trail where
  lexer : Lexer
  given : List Given

namespace Trail

def start (source : String) : Trail := ⟨ofSource source, []⟩

/-- One move. At the end and at an error no token is given, and the lexer goes on from where it
stopped. -/
def move (s : Trail) : Move → Trail
  | .next =>
    match s.lexer.next with
    | (.ok (some t), l) => ⟨l, s.given ++ [⟨t, s.lexer.mode, l⟩]⟩
    | (_, l) => ⟨l, s.given⟩
  | .mode mode => ⟨s.lexer.setMode mode, s.given⟩
  | .rewind i =>
    match s.given[i]? with
    | some g => ⟨s.lexer.rewind g.token, s.given⟩
    | none => s

def follow (s : Trail) (moves : List Move) : Trail := moves.foldl move s

/-- The lexer gone back to a token, in the mode of the token. -/
def backTo (s : Trail) (g : Given) : Lexer := (s.lexer.rewind g.token).setMode g.mode

end Trail

/-! ## What holds along a trail -/

section Scans

variable {source : List Char} {l l' : Lexer}

theorem Scans.pass (h : l.Scans source) (hunit : l.unitDue = false) (n : Nat) :
    (l.pass n).Scans source := by
  obtain ⟨before, rfl, hread⟩ := h
  refine ⟨before ++ l.rest.take n, ?_, hread.pass n hunit⟩
  show before ++ l.rest = before ++ l.rest.take n ++ l.rest.drop n
  rw [List.append_assoc, List.take_append_drop]

/-- An error leaves a lexer within its text. -/
theorem Scans.next_failed (h : l.Scans source) {e : SyntaxError} (hnext : l.next = (.error e, l')) :
    l'.Scans source := by
  unfold next at hnext
  split at hnext
  · cases hnext
  · rename_i hunit
    have hunit : l.unitDue = false := Bool.eq_false_iff.2 hunit
    split at hnext
    · cases hnext
      exact h.pass hunit _
    · rename_i gap _
      simp only at hnext
      split at hnext
      · cases hnext
      · split at hnext
        · cases hnext
          exact (h.pass hunit gap).pass hunit _
        · cases hnext

end Scans

/-- A token of a text that is read again, from any lexer that goes back to it. -/
structure Given.Sound (g : Given) (source : List Char) : Prop where
  cutFrom : g.token.CutFrom source
  again : g.token.kind ≠ .unit → ∀ l : Lexer,
    ((l.rewind g.token).setMode g.mode).next = (.ok (some g.token), g.after)

namespace Trail

/-- A lexer of a text that has given tokens of it. -/
structure Sound (s : Trail) (source : List Char) : Prop where
  lexer : s.lexer.Scans source
  given : ∀ g ∈ s.given, g.Sound source

theorem sound_start (source : String) : (start source).Sound source.toList where
  lexer := ⟨[], rfl, hasRead_ofSource source⟩
  given g hg := by cases hg

theorem Sound.next {s : Trail} {source : List Char} (h : s.Sound source) :
    (s.move .next).Sound source := by
  unfold Trail.move
  dsimp only
  split
  · rename_i t l hnext
    obtain ⟨hscans, hcut, -, -⟩ := h.lexer.next_token hnext
    refine ⟨hscans, fun g hg => ?_⟩
    rcases List.mem_append.1 hg with hg | hg
    · exact h.given g hg
    · obtain rfl := List.mem_singleton.1 hg
      exact ⟨hcut, next_rewind hnext⟩
  · rename_i result l hnot hnext
    refine ⟨?_, h.given⟩
    cases result with
    | error e => exact h.lexer.next_failed hnext
    | ok t =>
      cases t with
      | none => exact (h.lexer.next_end hnext).1
      | some t => exact (hnot t rfl).elim

theorem Sound.move {s : Trail} {source : List Char} (h : s.Sound source) (m : Move) :
    (s.move m).Sound source := by
  cases m with
  | next => exact h.next
  | mode mode => exact ⟨h.lexer.setMode mode, h.given⟩
  | rewind i =>
    unfold Trail.move
    dsimp only
    split
    · rename_i g hg
      exact ⟨(h.given g (List.mem_of_getElem? hg)).cutFrom.rewind _, h.given⟩
    · exact h

theorem Sound.follow {s : Trail} {source : List Char} (h : s.Sound source) (moves : List Move) :
    (s.follow moves).Sound source := by
  induction moves generalizing s with
  | nil => exact h
  | cons m moves ih => exact ih (h.move m)

end Trail

end Lexer

/-- Whatever a lexer is asked for, and however far it has gone on: going back to a token that is no
unit, to the place in the source that its offset tells, and asking for it in the same mode gives the
same token and the same lexer as before, and so the same tokens from there on in any modes. -/
theorem rewinding_undoes_lexing (source : String) (moves : List Lexer.Move) (g : Lexer.Given)
    (hg : g ∈ ((Lexer.Trail.start source).follow moves).given) (hkind : g.token.kind ≠ .unit) :
    (((Lexer.Trail.start source).follow moves).backTo g).rest =
        afterBytes g.token.offset source.toList ∧
      (((Lexer.Trail.start source).follow moves).backTo g).next =
        (.ok (some g.token), g.after) ∧
      ∀ requests : List Lexer.Request,
        (((Lexer.Trail.start source).follow moves).backTo g).run (.next :: requests) =
          ((g.mode, g.token) :: (g.after.run requests).1, (g.after.run requests).2) := by
  generalize htrail : (Lexer.Trail.start source).follow moves = s at hg ⊢
  have hsound : g.Sound source.toList := by
    rw [← htrail] at hg
    exact ((Lexer.Trail.sound_start source).follow moves).given g hg
  have hnext : (s.backTo g).next = (.ok (some g.token), g.after) := hsound.again hkind s.lexer
  refine ⟨?_, hnext, fun requests => ?_⟩
  · obtain ⟨before, hsource, hbehind⟩ := hsound.cutFrom
    show g.token.source = _
    rw [hbehind.offset, hsource, afterBytes_byteLength]
  · rw [Lexer.run, hnext]
    rfl

/-- The numbers of `1 -2em` and the unit of the second one, and then back to the first. -/
def trailBeyondSign : Lexer.Trail :=
  (Lexer.Trail.start "1 -2em").follow [.mode .value, .next, .next, .next, .mode .selector,
    .rewind 0, .next]

theorem rewinding_to_signed_number : ∃ g ∈ trailBeyondSign.given,
    g.token.text = "-2" ∧ g.token.kind = .number ∧ g.token.previous = some .number ∧
      g.token.spaceBefore = true ∧ g.after.unitDue = true ∧
      (trailBeyondSign.backTo g).next = (.ok (some g.token), g.after) := by
  have hgiven : (trailBeyondSign.given[1]?.map fun g => (g.token.text, g.token.kind,
      g.token.previous, g.token.spaceBefore, g.after.unitDue)) =
        some ("-2", .number, some .number, true, true) := by
    decide +kernel
  obtain ⟨g, hg, hfields⟩ := Option.map_eq_some_iff.1 hgiven
  simp only [Prod.mk.injEq] at hfields
  obtain ⟨htext, hkind, hprevious, hspace, hdue⟩ := hfields
  have hmem := List.mem_of_getElem? hg
  have hagain := rewinding_undoes_lexing _ _ g hmem (by rw [hkind]; decide)
  exact ⟨g, hmem, htext, hkind, hprevious, hspace, hdue, hagain.2.1⟩

end Stylesheet
