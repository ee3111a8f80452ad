import Stylesheet.Proofs.Token.Quoting
import Stylesheet.Proofs.Token.Tiling
import Stylesheet.Token.Reader

/-!
# Progress of reading

Reading ends with a result or with an error at a place of the source, and every token that is taken
leaves less to read. What a reader has left is counted from a token that was read ahead, so that
going back to it in another mode leaves as much as before.

* `Position.PointsInto`, `SyntaxError.Locates`: places of a text, and errors at them.
* `Reader.Has`: a reader of a source with at most so many characters left.
* `Reads`: what reading uses up and gives; `Reads.bind`: one after the other.
* `reads_peek`, `reads_next`, `reads_setMode`, …: the steps that everything is read by.
-/

namespace Stylesheet

/-! ## Places -/

/-- A place of a text. -/
def Position.PointsInto (p : Position) (text : List Char) : Prop :=
  ∃ before, before <+: text ∧ p = Position.start.advance before

/-- An error at a place of a text, which quotes parts of the text and no lines yet. -/
structure SyntaxError.Locates (e : SyntaxError) (text : List Char) : Prop where
  position : e.position.PointsInto text
  lines : e.lines = []
  quoted : Pieced text e.fault.quoted.toList

/-- A lexer of the given text. -/
def Lexer.Scans (l : Lexer) (source : List Char) : Prop :=
  ∃ before, source = before ++ l.rest ∧ l.HasRead before

/-- A token of the given text. -/
def Token.CutFrom (t : Token) (source : List Char) : Prop :=
  ∃ before, source = before ++ t.source ∧ t.Behind before

namespace Lexer

variable {source : List Char} {l l' : Lexer}

theorem Scans.pointsInto (h : l.Scans source) : l.position.PointsInto source := by
  obtain ⟨before, rfl, hread⟩ := h
  exact ⟨before, List.prefix_append _ _, hread.position⟩

theorem Scans.setMode (h : l.Scans source) (mode : LexicalMode) : (l.setMode mode).Scans source := by
  obtain ⟨before, hsource, hread⟩ := h
  exact ⟨before, hsource, hread.setMode mode⟩

theorem Scans.next_error (h : l.Scans source) {e : SyntaxError} (hnext : l.next = (.error e, l')) :
    e.Locates source := by
  obtain ⟨before, rfl, hread⟩ := h
  obtain ⟨hlines, p, ⟨rest, hp⟩, hposition⟩ := Lexer.next_error hread hnext
  refine ⟨⟨before ++ p, ⟨rest, ?_⟩, hposition⟩, hlines, ?_⟩
  · rw [List.append_assoc, hp]
  · rw [Lexer.next_quoted hnext]
    exact .nil

theorem Scans.next_end (h : l.Scans source) (hnext : l.next = (.ok none, l')) :
    l'.Scans source ∧ l'.rest = [] := by
  obtain ⟨before, rfl, hread⟩ := h
  obtain ⟨-, hrest, hread'⟩ := Lexer.next_end hread hnext
  exact ⟨⟨_, by rw [hrest, List.append_nil], hread'⟩, hrest⟩

/-- A token leaves less than what it was cut from, and that is no more than there was before. -/
theorem Scans.next_token (h : l.Scans source) {t : Token} (hnext : l.next = (.ok (some t), l')) :
    l'.Scans source ∧ t.CutFrom source ∧ l'.rest.length < t.source.length ∧
      t.source.length ≤ l.rest.length := by
  obtain ⟨before, rfl, hread⟩ := h
  obtain ⟨gap, hgives⟩ := Lexer.next_token hread hnext
  refine ⟨⟨_, ?_, hgives.hasRead⟩, ⟨_, ?_, hgives.behind⟩, ?_, ?_⟩
  · rw [hgives.rest, hgives.source]
    simp
  · rw [hgives.rest]
    simp
  · have hpos := List.length_pos_iff.2 hgives.text
    rw [hgives.source, List.length_append]
    omega
  · rw [hgives.rest, List.length_append]
    omega

end Lexer

namespace Token

variable {source : List Char} {t : Token}

theorem CutFrom.pointsInto (h : t.CutFrom source) : t.position.PointsInto source := by
  obtain ⟨before, rfl, hbehind⟩ := h
  exact ⟨before, List.prefix_append _ _, hbehind.position⟩

theorem CutFrom.text_part (h : t.CutFrom source) (ht : t.Written) : t.text.toList <:+: source := by
  obtain ⟨before, rfl, -⟩ := h
  exact ht.text_leads.isInfix.trans (List.suffix_append _ _).isInfix

theorem CutFrom.rewind (h : t.CutFrom source) (l : Lexer) : (l.rewind t).Scans source := by
  obtain ⟨before, hsource, hbehind⟩ := h
  exact ⟨before, hsource, hbehind.offset, hbehind.position, fun hdue => absurd hdue Bool.false_ne_true⟩

end Token

/-! ## Readers -/

namespace Reader

/-- How many characters are left, those of a token read ahead included. -/
def left (r : Reader) : Nat :=
  match r.ahead with
  | some t => t.source.length
  | none => r.lexer.rest.length

/-- A reader of a source with at most `j` characters left. -/
structure Has (r : Reader) (source : List Char) (j : Nat) : Prop where
  lexer : r.lexer.Scans source
  ahead : ∀ t, r.ahead = some t → t.CutFrom source ∧ r.lexer.rest.length < t.source.length
  written : ∀ t, r.ahead = some t → t.Written
  left : r.left ≤ j
  bound : j ≤ source.length
  room : stepsPerToken * (source.length + 1) ≤ r.room

theorem has_of_ahead_none {r : Reader} {source : List Char} {j : Nat} (hahead : r.ahead = none)
    (hlexer : r.lexer.Scans source) (hleft : r.lexer.rest.length ≤ j) (hbound : j ≤ source.length)
    (hroom : stepsPerToken * (source.length + 1) ≤ r.room) : r.Has source j where
  lexer := hlexer
  ahead t ht := by
    rw [hahead] at ht
    cases ht
  written t ht := by
    rw [hahead] at ht
    cases ht
  left := by
    rw [Reader.left, hahead]
    exact hleft
  bound := hbound
  room := hroom

theorem has_ofSource (source : String) :
    (ofSource source).Has source.toList source.toList.length :=
  has_of_ahead_none rfl ⟨[], rfl, Lexer.hasRead_ofSource source⟩ (Nat.le_refl _) (Nat.le_refl _)
    (by simp only [ofSource, String.length_toList, Nat.le_refl])

theorem Has.of_le {r : Reader} {source : List Char} {j k : Nat} (h : r.Has source j)
    (hle : j ≤ k) (hbound : k ≤ source.length) : r.Has source k :=
  { h with left := h.left.trans hle, bound := hbound }

end Reader

/-! ## Reading -/

namespace Reading

variable {α β : Type} {source : List Char} {j k m : Nat}

/-- A result with `Q` and at most `k` characters left, or an error at a place of the source. -/
def Meets (source : List Char) (k : Nat) (Q : α → Prop) : Except SyntaxError (α × Reader) → Prop
  | .ok (a, r) => r.Has source k ∧ Q a
  | .error e => e.Locates source

theorem Meets.mono {P Q : α → Prop} {x : Except SyntaxError (α × Reader)}
    (h : Meets source k P x) (hhas : ∀ r : Reader, r.Has source k → r.Has source m)
    (himp : ∀ a, P a → Q a) : Meets source m Q x := by
  cases x with
  | error e => exact h
  | ok x => exact ⟨hhas x.2 h.1, himp x.1 h.2⟩

/-- With at most `j` characters of the source left, reading leaves at most `k` and gives a result
with `Q`, or it fails with an error at a place of the source. -/
def Reads (source : List Char) (j k : Nat) (p : Reading α) (Q : α → Prop) : Prop :=
  ∀ r : Reader, r.Has source j → Meets source k Q (p r)

section Rules

variable {p : Reading α} {f : α → Reading β} {P : α → Prop} {Q : β → Prop}

theorem Reads.bind (hp : Reads source j k p P) (hf : ∀ a, P a → Reads source k m (f a) Q) :
    Reads source j m (p >>= f) Q := by
  intro r hr
  have hmeets := hp r hr
  show Meets source m Q (p r >>= fun x => f x.1 x.2)
  cases hpr : p r with
  | error e =>
    rw [hpr] at hmeets
    exact hmeets
  | ok x =>
    rw [hpr] at hmeets
    exact hf x.1 hmeets.2 x.2 hmeets.1

theorem Reads.of_le (hp : Reads source j k p P) (hle : k ≤ j) : Reads source j j p P :=
  fun r hr => (hp r hr).mono (fun _ hr' => hr'.of_le hle hr.bound) fun _ h => h

theorem Reads.pure {a : α} (ha : P a) : Reads source j j (pure a : Reading α) P :=
  fun _ hr => ⟨hr, ha⟩

theorem reads_fail {position : Position} (h : position.PointsInto source) {fault : SyntaxFault}
    (hfault : Pieced source fault.quoted.toList) : Reads source j k (fail fault position) P :=
  fun _ _ => ⟨h, rfl, hfault⟩

theorem reads_here : Reads source j j here fun p => p.PointsInto source :=
  fun _ hr => ⟨hr, hr.lexer.pointsInto⟩

theorem reads_room : Reads source j j room fun n => 8 * (j + 1) ≤ n := by
  intro r hr
  refine ⟨hr, ?_⟩
  have hbound := hr.bound
  have hroom := hr.room
  simp only [Reader.stepsPerToken] at hroom
  show 8 * (j + 1) ≤ r.room
  omega

end Rules

/-! ## Tokens -/

/-- A token of the source, read while characters were left. -/
structure IsToken (source : List Char) (j : Nat) (t : Token) : Prop where
  position : t.position.PointsInto source
  left : 0 < j
  text_part : t.text.toList <:+: source
  written : t.Written

theorem isToken_of_cutFrom {t : Token} (hcut : t.CutFrom source) (ht : t.Written) (hj : 0 < j) :
    IsToken source j t :=
  ⟨hcut.pointsInto, hj, hcut.text_part ht, ht⟩

theorem reads_peek : Reads source j j peek fun t => ∀ u ∈ t, IsToken source j u := by
  intro r hr
  have hleft := hr.left
  unfold peek
  split
  · rename_i t hahead
    obtain ⟨hcut, hlt⟩ := hr.ahead t hahead
    simp only [Reader.left, hahead] at hleft
    refine ⟨hr, fun u hu => ?_⟩
    obtain rfl : t = u := Option.some.inj hu
    exact isToken_of_cutFrom hcut (hr.written t hahead) (by omega)
  · rename_i hahead
    simp only [Reader.left, hahead] at hleft
    split
    · rename_i hnext
      exact hr.lexer.next_error hnext
    · rename_i t l hnext
      cases t with
      | none =>
        obtain ⟨hscans, hrest⟩ := hr.lexer.next_end hnext
        refine ⟨Reader.has_of_ahead_none rfl hscans ?_ hr.bound hr.room, fun u hu => ?_⟩
        · rw [hrest]
          exact Nat.zero_le j
        · cases hu
      | some t =>
        obtain ⟨hscans, hcut, hlt, hle⟩ := hr.lexer.next_token hnext
        have hwritten := Lexer.next_written hnext
        refine ⟨⟨hscans, fun u hu => ?_, fun u hu => ?_, hle.trans hleft, hr.bound, hr.room⟩,
          fun u hu => ?_⟩
        · obtain rfl : t = u := Option.some.inj hu
          exact ⟨hcut, hlt⟩
        · obtain rfl : t = u := Option.some.inj hu
          exact hwritten
        · obtain rfl : t = u := Option.some.inj hu
          exact isToken_of_cutFrom hcut hwritten (by omega)

theorem reads_peekKind : Reads source j j peekKind fun kind => kind.isSome = true → 0 < j := by
  refine reads_peek.bind fun t ht => .pure fun hsome => ?_
  cases t with
  | none => cases hsome
  | some t => exact (ht t rfl).2

/-- What is left after a token that was read, and what there is again if it is given back. -/
theorem next_has {r r' : Reader} {t : Option Token} (hr : r.Has source j)
    (h : next r = .ok (t, r')) :
    r'.Has source (j - 1) ∧ ∀ u ∈ t, IsToken source j u ∧
      Reader.Has { r' with lexer := r'.lexer.rewind u } source j := by
  have hleft := hr.left
  have hbound := hr.bound
  unfold next at h
  split at h
  · rename_i u hahead
    cases h
    obtain ⟨hcut, hlt⟩ := hr.ahead u hahead
    simp only [Reader.left, hahead] at hleft
    refine ⟨Reader.has_of_ahead_none rfl hr.lexer ?_ ?_ hr.room, fun v hv => ?_⟩
    · show r.lexer.rest.length ≤ j - 1
      omega
    · omega
    · obtain rfl : u = v := Option.some.inj hv
      exact ⟨isToken_of_cutFrom hcut (hr.written u hahead) (by omega),
        Reader.has_of_ahead_none rfl (hcut.rewind _) hleft hbound hr.room⟩
  · rename_i hahead
    simp only [Reader.left, hahead] at hleft
    split at h
    · cases h
    · rename_i l hnext
      cases h
      cases t with
      | none =>
        obtain ⟨hscans, hrest⟩ := hr.lexer.next_end hnext
        refine ⟨Reader.has_of_ahead_none hahead hscans ?_ (by omega) hr.room, fun u hu => ?_⟩
        · rw [hrest]
          exact Nat.zero_le _
        · cases hu
      | some u =>
        obtain ⟨hscans, hcut, hlt, hle⟩ := hr.lexer.next_token hnext
        refine ⟨Reader.has_of_ahead_none hahead hscans ?_ (by omega) hr.room, fun v hv => ?_⟩
        · show l.rest.length ≤ j - 1
          omega
        · obtain rfl : u = v := Option.some.inj hv
          exact ⟨isToken_of_cutFrom hcut (Lexer.next_written hnext) (by omega),
            Reader.has_of_ahead_none hahead (hcut.rewind _) (hle.trans hleft) hbound hr.room⟩

theorem next_locates {r : Reader} {e : SyntaxError} (hr : r.Has source j)
    (h : next r = .error e) : e.Locates source := by
  unfold next at h
  split at h
  · cases h
  · split at h
    · rename_i hnext
      cases h
      exact hr.lexer.next_error hnext
    · cases h

theorem reads_next : Reads source j (j - 1) next fun t => ∀ u ∈ t, IsToken source j u := by
  intro r hr
  cases h : next r with
  | error e => exact next_locates hr h
  | ok x =>
    obtain ⟨hhas, htoken⟩ := next_has hr h
    exact ⟨hhas, fun u hu => (htoken u hu).1⟩

/-- Going back to a token that was read ahead leaves what there was with it. -/
theorem reads_setMode (mode : LexicalMode) :
    Reads source j j (setMode mode) fun _ => True := by
  intro r hr
  obtain ⟨lexer, ahead, room⟩ := r
  cases ahead with
  | none =>
    exact ⟨Reader.has_of_ahead_none rfl (hr.lexer.setMode mode) hr.left hr.bound hr.room, trivial⟩
  | some t =>
    obtain ⟨hcut, -⟩ := hr.ahead t rfl
    exact ⟨Reader.has_of_ahead_none rfl ((hcut.rewind _).setMode mode) hr.left hr.bound hr.room,
      trivial⟩

/-! ## Steps with tokens -/

theorem reads_unexpected {P : α → Prop} {t : Token} {i : Nat} (ht : IsToken source i t)
    (reading : Construct) : Reads source j k (unexpected reading t : Reading α) P :=
  reads_fail ht.position (.of_part ht.text_part)

theorem reads_unexpectedEnd {P : α → Prop} (reading : Construct) :
    Reads source j k (unexpectedEnd reading : Reading α) P :=
  reads_here.bind fun _ hp => reads_fail hp .nil

theorem reads_require (reading : Construct) :
    Reads source j (j - 1) (require reading) (IsToken source j) := by
  refine reads_next.bind fun t ht => ?_
  cases t with
  | none => exact reads_unexpectedEnd reading
  | some t => exact .pure (ht t rfl)

theorem reads_expect (kind : TokenKind) (reading : Construct) :
    Reads source j (j - 1) (expect kind reading) (IsToken source j) := by
  refine (reads_require reading).bind fun t ht => ?_
  split
  · exact .pure ht
  · exact reads_unexpected ht reading

theorem reads_skip : Reads source j (j - 1) skip fun _ => True :=
  reads_next.bind fun _ _ => .pure trivial

theorem reads_endStatement (reading : Construct) :
    Reads source j j (endStatement reading) fun _ => True := by
  refine reads_peek.bind fun t ht => ?_
  cases t with
  | none => exact reads_setMode .block
  | some t =>
    dsimp only
    split
    · exact (reads_skip.of_le (Nat.sub_le j 1)).bind fun _ _ => reads_setMode .block
    · split
      · exact reads_setMode .block
      · exact (reads_unexpected (P := fun _ => True) (ht t rfl) reading).bind fun _ _ =>
          reads_setMode .block

end Reading

end Stylesheet
