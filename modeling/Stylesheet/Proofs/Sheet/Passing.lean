import Stylesheet.Proofs.Sheet.Fragments
import Stylesheet.Proofs.Sheet.Invariants

/-!
# Readers that pass fragments

A reader is followed by the language of the fragments that it has passed. Each token adds its
brackets, and the blank space before it.

* `Reader.Reached`: a reader that has passed fragments of a language.
* `Reading.Reaches`: from which language to which a reading takes a reader.
* `Reading.Continues`: reading inside of a text.
-/

namespace Stylesheet

/-! ## Readers -/

/-- What is still to be read, a token read ahead included. -/
def Reader.remaining (r : Reader) : List Char :=
  match r.ahead with
  | some t => t.source
  | none => r.lexer.rest

/-- A reader in a mode that has passed fragments of a language. -/
structure Reader.Reached (source : List Char) (L : Language Fragment) (mode : LexicalMode)
    (r : Reader) : Prop where
  mode_eq : r.lexer.mode = mode
  passed : ∃ fs ∈ L, source = spell fs ++ r.remaining
  ahead (t : Token) (h : r.ahead = some t) :
    t.source = t.text.toList ++ r.lexer.rest ∧ t.Fits mode

theorem Reader.Reached.mono {source : List Char} {K L : Language Fragment} {mode : LexicalMode}
    {r : Reader} (h : r.Reached source K mode) (hle : K ≤ L) : r.Reached source L mode := by
  obtain ⟨fs, hfs, hsource⟩ := h.passed
  exact ⟨h.mode_eq, ⟨fs, hle hfs, hsource⟩, h.ahead⟩

/-- What an import skips is taken whole. -/
theorem Reader.Reached.skipped {source : List Char} {L : Language Fragment} {mode : LexicalMode}
    {r : Reader} {name : List Char} (hname : name.map Char.toLower = "import".toList)
    (h : r.Reached source (L * blocks * {('@' :: name).map .char} * loose * stop) mode) :
    r.Reached source (L * blocks) mode := by
  obtain ⟨_, ⟨_, ⟨_, ⟨fs, hfs, _, rfl, rfl⟩, skipped, hskipped, rfl⟩, gs, hgs, rfl⟩, hsource⟩ :=
    h.passed
  have hblocks := Blocks.skipped hname hskipped (stop_le_blocks hgs)
  refine ⟨h.mode_eq, ⟨_, mul_le_of_le blocks_mul_le le_rfl (Language.append_mem_mul hfs hblocks), ?_⟩,
    h.ahead⟩
  rw [hsource]
  simp [Fragment.text]

/-- A reader that has just taken a token, after fragments of a language. -/
structure Reader.Took (source : List Char) (L : Language Fragment) (mode : LexicalMode) (t : Token)
    (r : Reader) : Prop where
  fits : t.Fits mode
  reached : r.Reached source (L * flat mode * bracket t.kind) mode
  spelled : r.Reached source (L * flat mode * {t.text.toList.map .char}) mode
  /-- The token can be given back. -/
  rewound : Reader.Reached source (L * flat mode) mode { r with lexer := r.lexer.rewind t }

section Took

variable {source : List Char} {L : Language Fragment} {mode : LexicalMode} {t : Token} {r : Reader}

theorem Reader.Took.text (h : r.Took source (L * textual mode) mode t) :
    r.Reached source (L * textual mode * bracket t.kind) mode :=
  h.reached.mono (mul_le_mul_left textual_mul_flat_le _)

theorem Reader.Took.plain (h : r.Took source (L * textual mode) mode t)
    (hkind : t.kind.brackets = []) : r.Reached source (L * textual mode) mode := by
  have htext := h.text
  rwa [bracket_eq_one hkind, mul_one] at htext

/-- In a selector most kinds of tokens have no brackets. -/
theorem Reader.Took.brackets_eq_nil (h : r.Took source L .selector t)
    (hkind : t.kind ∉ [.leftBrace, .rightBrace, .semicolon, .interpolation]) :
    t.kind.brackets = [] := by
  obtain ⟨hleft, hright⟩ := h.fits.selector rfl
  generalize t.kind = kind at *
  cases kind <;> first | rfl | simp_all

end Took

namespace Reading

/-- Reading takes a reader from one language and mode to others. -/
def Reaches (source : List Char) (K : Language Fragment) (mode : LexicalMode) {α : Type}
    (p : Reading α) (L : α → Language Fragment) (mode' : LexicalMode) : Prop :=
  Ensures (Reader.Reached source K mode) p fun a => Reader.Reached source (L a) mode'

section Steps

variable {source : List Char} {mode mode' : LexicalMode} {K L M : Language Fragment} {α β : Type}
  {p : Reading α} {f : α → Reading β}

theorem Reaches.bind {L : α → Language Fragment} {M : β → Language Fragment}
    {mode'' : LexicalMode} (hp : Reaches source K mode p L mode')
    (hf : ∀ a, Reaches source (L a) mode' (f a) M mode'') :
    Reaches source K mode (p >>= f) M mode'' :=
  Ensures.bind hp hf

theorem Reaches.mono {K' : Language Fragment} {L L' : α → Language Fragment}
    (hp : Reaches source K mode p L mode') (hK : K' ≤ K) (hL : ∀ a, L a ≤ L' a) :
    Reaches source K' mode p L' mode' :=
  fun _ a _ hr h => (hp (hr.mono hK) h).mono (hL a)

theorem Reaches.pure {L : α → Language Fragment} {a : α} (h : K ≤ L a) :
    Reaches source K mode (pure a : Reading α) L mode := by
  intro r b r' hr h'
  cases h'
  exact hr.mono h

theorem reaches_setMode : Reaches source K mode (setMode mode') (fun _ => K) mode' := by
  intro r a r' hr h
  obtain ⟨lexer, ahead, room⟩ := r
  cases h
  refine ⟨rfl, ?_, fun t ht => by cases ht⟩
  cases ahead <;> exact hr.passed

end Steps

section Tokens

variable {source : List Char} {mode : LexicalMode} {L : Language Fragment}

/-- Taking a token is peeking at it and passing it. -/
theorem next_ok_iff {r r' : Reader} {t : Option Token} : next r = .ok (t, r') ↔
    ∃ s, peek r = .ok (t, s) ∧ r' = { s with ahead := none } := by
  obtain ⟨lexer, ahead, room⟩ := r
  cases ahead with
  | some u =>
    simp only [next, peek, Except.ok.injEq, Prod.mk.injEq]
    constructor
    · rintro ⟨rfl, rfl⟩
      exact ⟨_, ⟨rfl, rfl⟩, rfl⟩
    · rintro ⟨s, ⟨rfl, rfl⟩, rfl⟩
      exact ⟨rfl, rfl⟩
  | none =>
    simp only [next, peek]
    split
    · simp
    · simp only [Except.ok.injEq, Prod.mk.injEq]
      constructor
      · rintro ⟨rfl, rfl⟩
        exact ⟨_, ⟨rfl, rfl⟩, rfl⟩
      · rintro ⟨s, ⟨rfl, rfl⟩, rfl⟩
        exact ⟨rfl, rfl⟩

theorem flat_of_isBlank {gap : List Char} (h : ∀ c ∈ gap, Text.isBlank c = true) :
    gap.map .char ∈ flat mode := by
  intro f hf
  obtain ⟨c, hc, rfl⟩ := List.mem_map.1 hf
  exact notMem_structural_of_isQuiet (Lexeme.isQuiet_of_isBlank (h c hc))

variable (hsource : Bare source)
include hsource

/-- Peeking passes the blanks before a token. -/
theorem ensures_peek_reached : Ensures (Reader.Reached source L mode) peek fun t r =>
    r.Reached source (L * flat mode) mode ∧ r.ahead = t ∧ (t = none → r.remaining = []) := by
  intro r t r' hr h
  obtain ⟨fs, hfs, hpassed⟩ := hr.passed
  unfold peek at h
  split at h
  next u hu =>
    cases h
    have hle : L ≤ L * flat mode := le_mul_of_one_le fun gs hgs => by
      cases hgs
      exact fun f hf => by cases hf
    exact ⟨hr.mono hle, hu, fun hnone => by cases hnone⟩
  next hnone =>
    have hremaining : r.remaining = r.lexer.rest := by rw [Reader.remaining, hnone]
    rw [hremaining] at hpassed
    have hbare : Bare r.lexer.rest := by
      rw [hpassed] at hsource
      exact hsource.right
    split at h
    next => cases h
    next l hl =>
      cases h
      cases t with
      | none =>
        obtain ⟨hmode, hrest, hblank⟩ := Lexer.next_none hbare hl
        refine ⟨⟨hmode.trans hr.mode_eq, ?_, fun u hu => by cases hu⟩, rfl, fun _ => hrest⟩
        refine ⟨fs ++ r.lexer.rest.map .char, ?_, ?_⟩
        · exact Language.append_mem_mul hfs (flat_of_isBlank hblank)
        · show source = _ ++ l.rest
          rw [hrest, hpassed]
          simp
      | some u =>
        obtain ⟨hmode, hrest, hfits, gap, hgap, hblank⟩ := Lexer.next_some hbare hl
        refine ⟨⟨hmode.trans hr.mode_eq, ?_, ?_⟩, rfl, fun hnone => by cases hnone⟩
        · refine ⟨fs ++ gap.map .char, ?_, ?_⟩
          · exact Language.append_mem_mul hfs (flat_of_isBlank hblank)
          · show source = _ ++ u.source
            rw [hpassed, hgap]
            simp
        · rintro _ ⟨rfl⟩
          rw [hr.mode_eq] at hfits
          exact ⟨hrest, hfits⟩

theorem ensures_next_reached : Ensures (Reader.Reached source L mode) next fun t r =>
    (∀ u, t = some u → r.Took source L mode u) ∧
      (t = none → r.Reached source (L * flat mode) mode) := by
  intro r t r' hr h
  obtain ⟨s, hpeek, rfl⟩ := next_ok_iff.1 h
  obtain ⟨hs, hahead, -⟩ := ensures_peek_reached hsource hr hpeek
  obtain ⟨lexer, ahead, room⟩ := s
  cases hahead
  refine ⟨?_, ?_⟩
  · rintro u rfl
    obtain ⟨fs, hfs, hpassed⟩ := hs.passed
    obtain ⟨hrest, hfits⟩ := hs.ahead u rfl
    obtain ⟨gs, hgs, hspell⟩ := hfits.fragments
    have htaken {gs : List Fragment} {M : Language Fragment} (hgs : fs ++ gs ∈ M)
        (hspell : u.text.toList = spell gs) :
        Reader.Reached source M mode { lexer, ahead := none, room } := by
      refine ⟨hs.mode_eq, ⟨fs ++ gs, hgs, ?_⟩, fun v hv => by cases hv⟩
      show source = _ ++ lexer.rest
      rw [hpassed, spell_append, List.append_assoc, ← hspell, ← hrest]
      rfl
    refine ⟨hfits, htaken ?_ hspell, htaken ?_ (spell_map_char _).symm, ?_⟩
    · rw [← List.append_assoc]
      refine Language.append_mem_mul ?_ rfl
      exact mul_le_of_le flat_mul_le le_rfl (Language.append_mem_mul hfs hgs)
    · exact Language.append_mem_mul hfs rfl
    · exact ⟨hs.mode_eq, ⟨fs, hfs, hpassed⟩, fun v hv => by cases hv⟩
  · rintro rfl
    exact hs

theorem ensures_require (reading : Construct) :
    Ensures (Reader.Reached source L mode) (require reading) fun t => Reader.Took source L mode t := by
  refine (ensures_next_reached hsource).bind fun t => ?_
  cases t with
  | none => exact ensures_unexpectedEnd reading
  | some t =>
    intro r u r' hr h
    cases h
    exact hr.1 t rfl

theorem ensures_skip {kind : TokenKind} :
    Ensures (fun r => r.Reached source L mode ∧ r.ahead.map Token.kind = some kind) skip
      fun _ => Reader.Reached source (L * flat mode * bracket kind) mode := by
  rintro r a r' ⟨hr, hkind⟩ h
  obtain ⟨t, ht, rfl⟩ := Option.map_eq_some_iff.1 hkind
  obtain ⟨u, s, hnext, h⟩ := ok_of_bind h
  cases h
  have htook := (ensures_next_reached hsource hr hnext).1 t
  rw [next, ht] at hnext
  cases hnext
  exact (htook rfl).reached

end Tokens

/-! ## Texts -/

/-- Reading goes on with a text and ends in it. -/
def Continues (source : List Char) (mode : LexicalMode) {α : Type} (p : Reading α) : Prop :=
  ∀ L, Keeps (Reader.Reached source (L * textual mode) mode) p

/-- A reader in a text whose next token is of a kind, which was read ahead. -/
def Follows (source : List Char) (L : Language Fragment) (mode : LexicalMode)
    (kind : Option TokenKind) (r : Reader) : Prop :=
  r.Reached source (L * textual mode) mode ∧ r.ahead.map Token.kind = kind

section Texts

variable {source : List Char} {mode : LexicalMode} {α β : Type} {p : Reading α}
  {f : α → Reading β}

theorem Continues.bind (hp : Continues source mode p) (hf : ∀ a, Continues source mode (f a)) :
    Continues source mode (p >>= f) :=
  fun L => (hp L).bind fun a => hf a L

theorem Continues.pure (a : α) : Continues source mode (pure a : Reading α) :=
  fun _ => Keeps.pure a

theorem Continues.of_follows {L : Language Fragment} {kind : Option TokenKind}
    (hp : Continues source mode p) : Ensures (Follows source L mode kind) p fun _ =>
      Reader.Reached source (L * textual mode) mode :=
  Ensures.of_imp (hp L) fun _ hr => hr.1

variable {L : Language Fragment}

variable (hsource : Bare source)
include hsource

theorem ensures_peek_text : Ensures (Reader.Reached source (L * textual mode) mode) peek
    fun t r => Follows source L mode (t.map Token.kind) r ∧ r.ahead = t := by
  intro r t r' hr h
  obtain ⟨hr', hahead, -⟩ := ensures_peek_reached hsource hr h
  exact ⟨⟨hr'.mono textual_mul_flat_le, by rw [hahead]⟩, hahead⟩

theorem ensures_peekKind_text : Ensures (Reader.Reached source (L * textual mode) mode) peekKind
    fun kind => Follows source L mode kind :=
  (ensures_peek_text hsource).bind fun t r kind r' hr h => by
    cases h
    exact hr.1

theorem reaches_require (reading : Construct) :
    Reaches source (L * textual mode) mode (require reading)
      (fun t => L * textual mode * bracket t.kind) mode :=
  fun _ _ _ hr h =>
    (ensures_require hsource reading hr h).text

theorem reaches_expect (kind : TokenKind) (reading : Construct) :
    Reaches source (L * textual mode) mode (expect kind reading)
      (fun _ => L * textual mode * bracket kind) mode := by
  refine (reaches_require hsource reading).bind fun t => ?_
  split
  next hkind =>
    rw [hkind]
    exact .pure le_rfl
  next => exact ensures_unexpected reading t

theorem ensures_skip_text {kind : TokenKind} : Ensures (Follows source L mode (some kind)) skip
    fun _ => Reader.Reached source (L * textual mode * bracket kind) mode :=
  fun _ _ _ hr h => (ensures_skip hsource hr h).mono (mul_le_mul_left textual_mul_flat_le _)

theorem ensures_skip_plain {kind : TokenKind} (hkind : kind.brackets = []) :
    Ensures (Follows source L mode (some kind)) skip
      fun _ => Reader.Reached source (L * textual mode) mode := by
  have hskip : Ensures (Follows source L mode (some kind)) skip
      fun _ => Reader.Reached source (L * textual mode * bracket kind) mode :=
    ensures_skip_text hsource
  rw [bracket_eq_one hkind, mul_one] at hskip
  exact hskip

theorem continues_expect {kind : TokenKind} (hkind : kind.brackets = []) (reading : Construct) :
    Continues source mode (expect kind reading) := by
  intro L
  have hexpect : Reaches source (L * textual mode) mode (expect kind reading)
      (fun _ => L * textual mode * bracket kind) mode := reaches_expect hsource kind reading
  rw [bracket_eq_one hkind, mul_one] at hexpect
  exact hexpect

end Texts

end Reading

end Stylesheet
