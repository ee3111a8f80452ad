import Stylesheet.Proofs.Token.Cutting
import Stylesheet.Token.Reader

/-!
# Reading token by token

What the steps of a reader do, told by the text that it stands before. Peeking does not move a
reader, so a reader that has read one token ahead stands where it stood before.

* `Reading.Runs`: reading that succeeds, with what holds after it.
* `Reader.At`, `Reader.Stands`: a reader before a text, with nothing read ahead, or maybe one token.
* `runs_peek`, `runs_next`, `runs_setMode`: the steps before a text whose first token is known.
-/

namespace Stylesheet

/-! ## Reading that succeeds -/

namespace Reading

variable {α β : Type}

/-- Reading from `r` succeeds, and `Q` holds of the result and of the reader after it. -/
def Runs (p : Reading α) (r : Reader) (Q : α → Reader → Prop) : Prop :=
  ∃ a r', p r = .ok (a, r') ∧ Q a r'

theorem runs_bind {p : Reading α} {f : α → Reading β} {r : Reader} {Q : β → Reader → Prop}
    (h : Runs p r fun a r' => Runs (f a) r' Q) : Runs (p >>= f) r Q := by
  obtain ⟨a, r', hr', b, r'', hr'', hb⟩ := h
  refine ⟨b, r'', ?_, hb⟩
  show (p r >>= fun (a, r') => f a r') = _
  rw [hr']
  exact hr''

theorem runs_pure {a : α} {r : Reader} {Q : α → Reader → Prop} (h : Q a r) :
    Runs (pure a : Reading α) r Q :=
  ⟨a, r, rfl, h⟩

theorem runs_room {r : Reader} {Q : Nat → Reader → Prop} (h : Q r.room r) : Runs room r Q :=
  ⟨r.room, r, rfl, h⟩

theorem runs_here {r : Reader} {Q : Position → Reader → Prop} (h : Q r.lexer.position r) :
    Runs here r Q :=
  ⟨_, r, rfl, h⟩

end Reading

/-! ## One token -/

/-- A token that was cut off as `word`, after the blanks `gap` and before `rest`. -/
structure Token.IsCut (t : Token) (kind : TokenKind) (gap word rest : List Char) : Prop where
  kind : t.kind = kind
  text : t.text = String.ofList word
  source : t.source = word ++ rest
  spaceBefore : gap ≠ [] → t.spaceBefore = true

theorem Lexer.next_of_cut {l : Lexer} {kind : TokenKind} {gap word rest : List Char}
    (hrest : l.rest = gap ++ (word ++ rest)) (hunit : l.unitDue = false) (hgap : IsGap gap)
    (hcut : Cut l.mode kind word rest) :
    ∃ t l', l.next = (.ok (some t), l') ∧ t.IsCut kind gap word rest ∧ l'.rest = rest ∧
      l'.mode = l.mode ∧ (kind ≠ .number → l'.unitDue = false) := by
  obtain ⟨c, cs, hword, hlexeme⟩ := hcut.lexeme
  have hlength : Lexeme.gapLength (l.mode != .block) 0 l.rest = .ok gap.length := by
    rw [hrest, gapLength_append _ 0 hgap _ hcut.head, Nat.zero_add]
  have hdrop : l.rest.drop gap.length = word ++ rest := by
    rw [hrest, List.drop_left]
  have hnext := hlexeme { l.skip gap.length with spaceDue := false } (l.spaceDue || gap.length != 0) rfl
  unfold Lexer.next
  rw [hunit, hlength]
  simp only [Lexer.skip, hdrop, hword] at hnext ⊢
  simp only [hnext, Lexer.emit, Lexer.skip]
  refine ⟨_, _, rfl, ⟨rfl, ?_, hword.symm, ?_⟩, ?_, rfl, ?_⟩
  · rw [← hword, List.take_left]
  · intro hne
    simp [hne]
  · rw [← hword, List.drop_left]
  · intro hkind
    simp [hkind]

/-! ## Readers before a text -/

namespace Reader

/-- A reader before `text` in a mode, with nothing read ahead. -/
structure At (r : Reader) (mode : LexicalMode) (text : List Char) (room : Nat) : Prop where
  ahead : r.ahead = none
  rest : r.lexer.rest = text
  mode : r.lexer.mode = mode
  unitDue : r.lexer.unitDue = false
  room : r.room = room

/-- A reader before `text` in a mode, maybe with the first token read ahead. -/
def Stands (r : Reader) (mode : LexicalMode) (text : List Char) (room : Nat) : Prop :=
  ∃ start : Reader, start.At mode text room ∧
    (r = start ∨ ∃ t, Reading.peek start = .ok (some t, r))

theorem At.stands {r : Reader} {mode : LexicalMode} {text : List Char} {room : Nat}
    (h : r.At mode text room) : r.Stands mode text room :=
  ⟨r, h, .inl rfl⟩

theorem Stands.room {r : Reader} {mode : LexicalMode} {text : List Char} {room : Nat}
    (h : r.Stands mode text room) : r.room = room := by
  obtain ⟨start, hstart, rfl | ⟨t, ht⟩⟩ := h
  · exact hstart.room
  · rw [Reading.peek, hstart.ahead] at ht
    dsimp only at ht
    split at ht
    · cases ht
    · cases ht
      exact hstart.room

end Reader

namespace Reading

section Token

variable {r : Reader} {mode : LexicalMode} {room : Nat} {kind : TokenKind}
  {gap word rest : List Char}

theorem exists_token (h : r.Stands mode (gap ++ (word ++ rest)) room) (hgap : IsGap gap)
    (hcut : Cut mode kind word rest) :
    ∃ t l, t.IsCut kind gap word rest ∧ l.rest = rest ∧ l.mode = mode ∧
      (kind ≠ .number → l.unitDue = false) ∧
      peek r = .ok (some t, ⟨l, some t, room⟩) ∧ next r = .ok (some t, ⟨l, none, room⟩) ∧
      Reader.Stands ⟨l, some t, room⟩ mode (gap ++ (word ++ rest)) room := by
  obtain ⟨⟨lexer, ahead, room'⟩, hstart, hr⟩ := h
  obtain ⟨rfl, hrest, hmode, hunit, rfl⟩ := hstart
  obtain ⟨t, l, hnext, htoken, hlrest, hlmode, hlunit⟩ :=
    Lexer.next_of_cut hrest hunit hgap (hmode ▸ hcut)
  have hpeek : peek ⟨lexer, none, room'⟩ = .ok (some t, ⟨l, some t, room'⟩) := by
    rw [peek]
    simp only [hnext]
  have hstands : Reader.Stands ⟨l, some t, room'⟩ mode (gap ++ (word ++ rest)) room' :=
    ⟨_, ⟨rfl, hrest, hmode, hunit, rfl⟩, .inr ⟨t, hpeek⟩⟩
  refine ⟨t, l, htoken, hlrest, hlmode.trans hmode, hlunit, ?_, ?_, hstands⟩
  · rcases hr with rfl | ⟨t', ht'⟩
    · exact hpeek
    · -- What was read ahead is what a peek reads, and it stays.
      rw [hpeek] at ht'
      cases ht'
      rfl
  · rcases hr with rfl | ⟨t', ht'⟩
    · rw [next]
      simp only [hnext]
    · rw [hpeek] at ht'
      cases ht'
      rfl

theorem runs_peek (h : r.Stands mode (gap ++ (word ++ rest)) room) (hgap : IsGap gap)
    (hcut : Cut mode kind word rest) {Q : Option Token → Reader → Prop}
    (hQ : ∀ t r', t.IsCut kind gap word rest → r'.Stands mode (gap ++ (word ++ rest)) room →
      Q (some t) r') : Runs peek r Q := by
  obtain ⟨t, l, htoken, -, -, -, hpeek, -, hstands⟩ := exists_token h hgap hcut
  exact ⟨_, _, hpeek, hQ t _ htoken hstands⟩

theorem runs_peekKind (h : r.Stands mode (gap ++ (word ++ rest)) room) (hgap : IsGap gap)
    (hcut : Cut mode kind word rest) {Q : Option TokenKind → Reader → Prop}
    (hQ : ∀ r', r'.Stands mode (gap ++ (word ++ rest)) room → Q (some kind) r') :
    Runs peekKind r Q := by
  refine runs_bind (runs_peek h hgap hcut fun t r' htoken hr' => runs_pure ?_)
  rw [Option.map_some, htoken.kind]
  exact hQ r' hr'

theorem runs_next (h : r.Stands mode (gap ++ (word ++ rest)) room) (hgap : IsGap gap)
    (hcut : Cut mode kind word rest) (hkind : kind ≠ .number) {Q : Option Token → Reader → Prop}
    (hQ : ∀ t r', t.IsCut kind gap word rest → r'.At mode rest room → Q (some t) r') :
    Runs next r Q := by
  obtain ⟨t, l, htoken, hrest, hmode, hunit, -, hnext, -⟩ := exists_token h hgap hcut
  exact ⟨_, _, hnext, hQ t _ htoken ⟨rfl, hrest, hmode, hunit hkind, rfl⟩⟩

theorem runs_skip (h : r.Stands mode (gap ++ (word ++ rest)) room) (hgap : IsGap gap)
    (hcut : Cut mode kind word rest) (hkind : kind ≠ .number) {Q : Unit → Reader → Prop}
    (hQ : ∀ r', r'.At mode rest room → Q () r') : Runs skip r Q :=
  runs_bind (runs_next h hgap hcut hkind fun _ r' _ hr' => runs_pure (hQ r' hr'))

theorem runs_require (h : r.Stands mode (gap ++ (word ++ rest)) room) (hgap : IsGap gap)
    (hcut : Cut mode kind word rest) (hkind : kind ≠ .number) (reading : Construct)
    {Q : Token → Reader → Prop}
    (hQ : ∀ t r', t.IsCut kind gap word rest → r'.At mode rest room → Q t r') :
    Runs (require reading) r Q :=
  runs_bind (runs_next h hgap hcut hkind fun t r' ht hr' => runs_pure (hQ t r' ht hr'))

/-- With nothing read ahead only the mode changes. -/
theorem runs_setMode_at {text : List Char} (h : r.At mode text room) (mode' : LexicalMode)
    {Q : Unit → Reader → Prop} (hQ : ∀ r', r'.At mode' text room → Q () r') :
    Runs (setMode mode') r Q := by
  obtain ⟨lexer, ahead, room'⟩ := r
  obtain ⟨rfl, hrest, -, hunit, rfl⟩ := h
  exact ⟨(), _, rfl, hQ _ ⟨rfl, hrest, rfl, hunit, rfl⟩⟩

/-- A token that was read ahead is given back, so that reading goes on before it. -/
theorem runs_setMode (h : r.Stands mode (gap ++ (word ++ rest)) room) (hgap : IsGap gap)
    (hcut : Cut mode kind word rest) (mode' : LexicalMode) {Q : Unit → Reader → Prop}
    (hQ : ∀ gap' r', IsGap gap' → r'.At mode' (gap' ++ (word ++ rest)) room → Q () r') :
    Runs (setMode mode') r Q := by
  obtain ⟨start, hstart, rfl | ⟨t, ht⟩⟩ := h
  · exact runs_setMode_at hstart mode' fun r' hr' => hQ gap r' hgap hr'
  · obtain ⟨t', l, htoken, -, -, -, hpeek, -, -⟩ := exists_token hstart.stands hgap hcut
    rw [hpeek] at ht
    cases ht
    exact ⟨(), _, rfl, hQ [] _ isGap_nil ⟨rfl, htoken.source, rfl, rfl, rfl⟩⟩

end Token

/-- Nothing is left but blanks. -/
theorem runs_peek_end {r : Reader} {mode : LexicalMode} {gap : List Char} {room : Nat}
    (h : r.At mode gap room) (hgap : IsGap gap) {Q : Option Token → Reader → Prop}
    (hQ : ∀ r', Q none r') : Runs peek r Q := by
  have hlength := gapLength_append (r.lexer.mode != .block) 0 hgap [] (by simp)
  rw [List.append_nil, Nat.zero_add, ← h.rest] at hlength
  obtain ⟨l, hnext⟩ : ∃ l, r.lexer.next = (.ok none, l) := by
    unfold Lexer.next
    rw [h.unitDue, hlength]
    simp only [Lexer.skip, h.rest, List.drop_length]
    exact ⟨_, rfl⟩
  refine ⟨none, _, ?_, hQ { r with lexer := l, ahead := none }⟩
  rw [peek, h.ahead, hnext]

end Reading

end Stylesheet
