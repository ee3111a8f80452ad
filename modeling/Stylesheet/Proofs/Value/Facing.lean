import Stylesheet.Proofs.Sheet.Invariants
import Stylesheet.Proofs.Token.Appending

/-!
# Readers before the tokens of a value

What the steps of a reader do in a value, told by the tokens before it: one equation for each way
that a step can go. The same equation tells what a step does and what it has done.

* `Reader.Faces`: the tokens before a reader.
* `Reader.Faces.peek`, `Reader.Faces.next`, …: single steps.
* `Reader.Faces.spaceListIn_token`, `Reader.Faces.groupsIn_comma`, …: the steps of lists.
-/

namespace Stylesheet

open Lexeme

/-! ## Readers in a value -/

theorem Lexer.next_of_blank {l : Lexer} (hunit : l.unitDue = false) (hrest : IsBlank l.rest) :
    l.next = (.ok none, l.pass l.rest.length) := by
  have hlength : gapLength (l.mode != .block) 0 (l.rest ++ []) = .ok (0 + l.rest.length) :=
    gapLength_blank _ 0 hrest id
  rw [List.append_nil, Nat.zero_add] at hlength
  unfold Lexer.next
  rw [hunit, hlength]
  simp [Lexer.skip, Lexer.pass]

/-- In a value a lexer gives the first of its tokens and goes on before the others. -/
theorem Lexer.Apart.next {l : Lexer} {ps : List Spelling} (h : l.Apart ps) :
    ∃ t l', l.next = (.ok t, l') ∧ t.map Token.spelling = ps.head? ∧ l'.Apart ps.tail := by
  cases h with
  | nil hmode hunit hrest =>
    refine ⟨none, l.pass l.rest.length, next_of_blank hunit hrest, rfl, .nil hmode hunit ?_⟩
    simp [IsBlank, Lexer.pass, Lexer.skip]
  | cons _ hnext _ _ hrest => exact ⟨_, _, hnext, rfl, hrest⟩

theorem Lexer.Apart.mode {l : Lexer} {ps : List Spelling} (h : l.Apart ps) : l.mode = .value := by
  cases h <;> assumption

/-- The tokens before a reader in a value. -/
inductive Reader.Faces : Reader → List Spelling → Prop
  | fresh {r : Reader} {ps : List Spelling} (hahead : r.ahead = none) (h : r.lexer.Apart ps) :
      Reader.Faces r ps
  | ahead {r : Reader} {t : Token} {ps : List Spelling} (hahead : r.ahead = some t)
      (h : r.lexer.Apart ps) : Reader.Faces r (t.spelling :: ps)

namespace Reader.Faces

open Reading

variable {r : Reader} {p : Spelling} {ps : List Spelling}

theorem peek (h : r.Faces ps) :
    ∃ t r', Reading.peek r = .ok (t, r') ∧ t.map Token.spelling = ps.head? ∧ r'.Faces ps := by
  cases h with
  | fresh hahead h =>
    obtain ⟨t, l, hnext, ht, hrest⟩ := h.next
    refine ⟨t, { r with lexer := l, ahead := t }, ?_, ht, ?_⟩
    · rw [Reading.peek, hahead, hnext]
    · cases t with
      | none =>
        cases ps with
        | nil => exact .fresh rfl hrest
        | cons p ps => cases ht
      | some t =>
        cases ps with
        | nil => cases ht
        | cons p ps =>
          cases ht
          exact .ahead rfl hrest
  | @ahead t ps hahead h =>
    refine ⟨some t, r, ?_, rfl, .ahead hahead h⟩
    rw [Reading.peek, hahead]

theorem next (h : r.Faces ps) :
    ∃ t r', Reading.next r = .ok (t, r') ∧ t.map Token.spelling = ps.head? ∧ r'.Faces ps.tail ∧
      r'.ahead = none := by
  cases h with
  | fresh hahead h =>
    obtain ⟨t, l, hnext, ht, hrest⟩ := h.next
    refine ⟨t, { r with lexer := l }, ?_, ht, .fresh hahead hrest, hahead⟩
    rw [Reading.next, hahead, hnext]
  | @ahead t ps hahead h =>
    refine ⟨some t, { r with ahead := none }, ?_, rfl, .fresh rfl h, rfl⟩
    rw [Reading.next, hahead]

end Reader.Faces

namespace Reading

variable {α β : Type} {r r' s : Reader} {p : Spelling} {ps : List Spelling}

theorem bind_of_ok {x : Reading α} {a : α} (h : x r = .ok (a, r')) (f : α → Reading β) :
    (x >>= f) r = f a r' := by
  show (x r >>= fun y => f y.1 y.2) = _
  rw [h]
  rfl

theorem runs_of_ok {x : Reading α} {a : α} (h : x r = .ok (a, r')) {f : α → Reading β}
    {Q : β → Reader → Prop} (hf : Runs (f a) r' Q) : Runs (x >>= f) r Q :=
  runs_bind ⟨a, r', h, hf⟩

end Reading

namespace Reader.Faces

open Reading

variable {r : Reader} {p : Spelling} {ps : List Spelling}

theorem peekKind (h : r.Faces ps) :
    ∃ r', Reading.peekKind r = .ok (ps.head?.map Spelling.kind, r') ∧ r'.Faces ps := by
  obtain ⟨t, r', hpeek, ht, hr'⟩ := h.peek
  refine ⟨r', ?_, hr'⟩
  rw [Reading.peekKind, bind_of_ok hpeek, ← ht, Option.map_map]
  rfl

theorem callFollows (h : r.Faces ps) :
    ∃ r', Reading.callFollows r =
      .ok (ps.head?.any fun p => p.kind = .leftParen && !p.spaced, r') ∧ r'.Faces ps := by
  obtain ⟨t, r', hpeek, ht, hr'⟩ := h.peek
  refine ⟨r', ?_, hr'⟩
  rw [Reading.callFollows, bind_of_ok hpeek, ← ht]
  cases t <;> rfl

theorem skip (h : r.Faces (p :: ps)) : ∃ r', Reading.skip r = .ok ((), r') ∧ r'.Faces ps := by
  obtain ⟨t, r', hnext, -, hr', -⟩ := h.next
  exact ⟨r', by rw [Reading.skip, bind_of_ok hnext]; rfl, hr'⟩

theorem require (h : r.Faces (p :: ps)) (reading : Construct) :
    ∃ t r', Reading.require reading r = .ok (t, r') ∧ t.spelling = p ∧ r'.Faces ps ∧
      r'.ahead = none := by
  obtain ⟨t, r', hnext, ht, hr', hahead⟩ := h.next
  cases t with
  | none => cases ht
  | some t =>
    refine ⟨t, r', ?_, Option.some.inj ht, hr', hahead⟩
    rw [Reading.require, bind_of_ok hnext]
    rfl

/-- Where a token is required, there is one. -/
theorem of_require (h : r.Faces ps) {reading : Construct} {t : Token} {r' : Reader}
    (hrun : Reading.require reading r = .ok (t, r')) : ∃ p ps', ps = p :: ps' := by
  cases ps with
  | cons p ps => exact ⟨p, ps, rfl⟩
  | nil =>
    obtain ⟨t, r', hnext, ht, -, -⟩ := h.next
    cases t with
    | some t => cases ht
    | none =>
      rw [Reading.require, bind_of_ok hnext] at hrun
      cases hrun

theorem of_closeParen (h : r.Faces ps) {opening : Position} {reading : Construct} {a : Unit}
    {r' : Reader} (hrun : Reading.closeParen opening reading r = .ok (a, r')) :
    ∃ p ps', ps = p :: ps' ∧ p.kind = .rightParen ∧ r'.Faces ps' := by
  obtain ⟨t, s, hnext, ht, hs, -⟩ := h.next
  rw [Reading.closeParen, bind_of_ok hnext] at hrun
  cases t with
  | none => cases hrun
  | some t =>
    cases ps with
    | nil => cases ht
    | cons p ps =>
      cases ht
      dsimp only at hrun
      split at hrun
      · rename_i hkind
        cases hrun
        exact ⟨_, ps, rfl, hkind, hs⟩
      · split at hrun
        · cases hrun
        · cases hrun

theorem closeParen (h : r.Faces (p :: ps)) (hkind : p.kind = .rightParen) (opening : Position)
    (reading : Construct) :
    ∃ r', Reading.closeParen opening reading r = .ok ((), r') ∧ r'.Faces ps := by
  obtain ⟨t, r', hnext, ht, hr', -⟩ := h.next
  cases t with
  | none => cases ht
  | some t =>
    cases ht
    have hkind : t.kind = .rightParen := hkind
    refine ⟨r', ?_, hr'⟩
    rw [Reading.closeParen, bind_of_ok hnext]
    dsimp only
    rw [if_pos hkind]
    rfl

theorem of_expect (h : r.Faces ps) {kind : TokenKind} {reading : Construct} {t : Token}
    {r' : Reader} (hrun : Reading.expect kind reading r = .ok (t, r')) :
    ∃ p ps', ps = p :: ps' ∧ p.kind = kind ∧ r'.Faces ps' ∧ r'.ahead = none := by
  obtain ⟨u, s, hrequire, hexpect⟩ := ok_of_bind hrun
  obtain ⟨p, ps', rfl⟩ := h.of_require hrequire
  obtain ⟨u', s', hrequire', hu, hs, hahead⟩ := h.require reading
  cases hrequire.symm.trans hrequire'
  split at hexpect
  · rename_i hkind
    cases hexpect
    exact ⟨p, ps', rfl, (congrArg Spelling.kind hu).symm.trans hkind, hs, hahead⟩
  · cases hexpect

theorem expect (h : r.Faces (p :: ps)) {kind : TokenKind} (hkind : p.kind = kind)
    (reading : Construct) :
    ∃ t r', Reading.expect kind reading r = .ok (t, r') ∧ t.spelling = p ∧ r'.Faces ps ∧
      r'.ahead = none := by
  obtain ⟨t, r', hrequire, ht, hr', hahead⟩ := h.require reading
  have hkind' : t.kind = kind := (congrArg Spelling.kind ht).trans hkind
  refine ⟨t, r', ?_, ht, hr', hahead⟩
  rw [Reading.expect, bind_of_ok hrequire, if_pos hkind']
  rfl

/-- A number that no unit comes after. -/
theorem quantity_plain (h : r.Faces ps) {t : Token} {n : Numeral}
    (hn : Numeral.read? t.text = some n) (hunit : ∀ p ∈ ps.head?, p.kind ≠ .unit) :
    ∃ r', quantity t r = .ok (.quantity ⟨n.toDouble, ""⟩, r') ∧ r'.Faces ps := by
  obtain ⟨u, r', hpeek, hu, hr'⟩ := h.peek
  refine ⟨r', ?_, hr'⟩
  rw [quantity, hn]
  dsimp only
  rw [bind_of_ok hpeek]
  cases u with
  | none => rfl
  | some u =>
    have hkind : u.kind ≠ .unit := hunit u.spelling hu.symm
    dsimp only
    rw [if_neg hkind]
    rfl

theorem quantity_unit (h : r.Faces (p :: ps)) {t : Token} {n : Numeral}
    (hn : Numeral.read? t.text = some n) (hunit : p.kind = .unit) :
    ∃ r', quantity t r = .ok (.quantity ⟨n.toDouble, p.text⟩, r') ∧ r'.Faces ps := by
  obtain ⟨u, r₁, hpeek, hu, hr₁⟩ := h.peek
  obtain ⟨r', hskip, hr'⟩ := hr₁.skip
  refine ⟨r', ?_, hr'⟩
  rw [quantity, hn]
  dsimp only
  rw [bind_of_ok hpeek]
  cases u with
  | none => cases hu
  | some u =>
    cases hu
    have hkind : u.kind = .unit := hunit
    dsimp only
    rw [if_pos hkind, bind_of_ok hskip]
    rfl

/-- In a value nothing changes with the mode, as long as no token is read ahead. -/
theorem setMode (h : r.Faces ps) (hahead : r.ahead = none) :
    Reading.setMode .value r = .ok ((), r) := by
  cases h with
  | ahead hsome => cases hahead.symm.trans hsome
  | fresh _ h =>
    have hmode := h.mode
    obtain ⟨⟨rest, offset, position, mode, last, unitDue, spaceDue⟩, ahead, room⟩ := r
    cases hahead
    cases hmode
    rfl

end Reader.Faces

/-- The components of a space list, reversed, and one more term. -/
def grown (components : List Value) (spaced : Bool) (term : Value) : List Value :=
  match components with
  | [] => [term]
  | last :: before => if spaced then term :: last :: before else last.join term :: before

namespace Reader.Faces

open Reading

variable {g : Grammar} {r : Reader} {p : Spelling} {ps : List Spelling}

theorem groupsIn_end (h : r.Faces ps) (hcomma : ∀ p ∈ ps.head?, p.kind ≠ .comma)
    (groups : List Value) (n : Nat) :
    ∃ r', groupsIn g groups (n + 1) r = .ok (.ofGroups groups.reverse, r') ∧ r'.Faces ps := by
  obtain ⟨r', hkind, hr'⟩ := h.peekKind
  refine ⟨r', ?_, hr'⟩
  rw [groupsIn, bind_of_ok hkind, if_neg]
  · rfl
  · intro hhead
    obtain ⟨p, hp, hkind⟩ := Option.map_eq_some_iff.1 hhead
    exact hcomma p hp hkind

theorem groupsIn_comma (h : r.Faces (p :: ps)) (hp : p.kind = .comma) (groups : List Value) :
    ∃ r', r'.Faces ps ∧ ∀ n, groupsIn g groups (n + 1) r = (spaceListIn g [] n >>= fun group =>
      groupsIn g (group :: groups) n) r' := by
  obtain ⟨r₁, hkind, hr₁⟩ := h.peekKind
  obtain ⟨r', hskip, hr'⟩ := hr₁.skip
  refine ⟨r', hr', fun n => ?_⟩
  rw [groupsIn, bind_of_ok hkind, List.head?_cons, Option.map_some, hp, if_pos rfl,
    bind_of_ok hskip]

theorem operatorsIn_end (h : r.Faces ps) {least : Nat}
    (hop : ∀ op ∈ (ps.head?.map Spelling.kind).bind g.operator?, op.precedence < least)
    (left : Value) (n : Nat) :
    ∃ r', operatorsIn g least left (n + 1) r = .ok (left, r') ∧ r'.Faces ps := by
  obtain ⟨r', hkind, hr'⟩ := h.peekKind
  refine ⟨r', ?_, hr'⟩
  rw [operatorsIn, bind_of_ok hkind]
  cases heq : (ps.head?.map Spelling.kind).bind g.operator? with
  | none => rfl
  | some op =>
    dsimp only
    rw [if_pos (hop op heq)]
    rfl

theorem operatorsIn_operator (h : r.Faces (p :: ps)) {op : Operator}
    (hop : g.operator? p.kind = some op) {least : Nat} (hleast : ¬ op.precedence < least)
    (left : Value) (n : Nat) :
    ∃ r', operatorsIn g least left (n + 1) r = (binaryIn g (op.precedence + 1) n >>= fun right =>
      operatorsIn g least (.binary left op right) n) r' ∧ r'.Faces ps := by
  obtain ⟨r₁, hkind, hr₁⟩ := h.peekKind
  obtain ⟨r', hskip, hr'⟩ := hr₁.skip
  refine ⟨r', ?_, hr'⟩
  rw [operatorsIn, bind_of_ok hkind, List.head?_cons, Option.map_some, Option.bind_some, hop]
  dsimp only
  rw [if_neg hleast, bind_of_ok hskip]

theorem spaceListIn_end (h : r.Faces ps) (hends : ∀ p ∈ ps.head?, p.kind.endsList = true)
    (components : List Value) (n : Nat) :
    ∃ r', spaceListIn g components (n + 1) r = .ok (.ofComponents components.reverse, r') ∧
      r'.Faces ps := by
  obtain ⟨t, r', hpeek, ht, hr'⟩ := h.peek
  refine ⟨r', ?_, hr'⟩
  rw [spaceListIn, bind_of_ok hpeek]
  cases t with
  | none => rfl
  | some t =>
    have hkind : t.kind.endsList = true := hends t.spelling ht.symm
    dsimp only
    rw [if_pos hkind]
    rfl

theorem spaceListIn_token (h : r.Faces (p :: ps)) (hp : p.kind.endsList = false)
    (components : List Value) :
    ∃ r', r'.Faces (p :: ps) ∧ ∀ n, spaceListIn g components (n + 1) r = (binaryIn g 0 n >>=
      fun term => spaceListIn g (grown components p.spaced term) n) r' := by
  obtain ⟨t, r', hpeek, ht, hr'⟩ := h.peek
  cases t with
  | none => cases ht
  | some t =>
    cases ht
    have hkind : ¬ t.kind.endsList = true := Bool.eq_false_iff.1 hp
    refine ⟨r', hr', fun n => ?_⟩
    rw [spaceListIn, bind_of_ok hpeek]
    dsimp only
    rw [if_neg hkind]
    cases components with
    | nil => rfl
    | cons last before => cases hspace : t.spaceBefore <;> simp [grown, Token.spelling, hspace]

end Reader.Faces

/-- The token that was peeked at is the one read ahead. -/
theorem Reader.Faces.peeked {p : Spelling} {ps : List Spelling} {r : Reader}
    (hr : r.Faces (p :: ps)) :
    ∃ t l room, Reading.peek r = .ok (some t, ⟨l, some t, room⟩) ∧ t.spelling = p ∧ l.Apart ps := by
  cases hr with
  | fresh hahead h =>
    cases h with
    | @cons l l' t gap ps hmode hnext hsource hgap hrest =>
      exact ⟨_, l', r.room, by rw [Reading.peek, hahead, hnext], rfl, hrest⟩
  | @ahead t ps hahead h =>
    refine ⟨t, r.lexer, r.room, ?_, rfl, h⟩
    obtain ⟨l, ahead, room⟩ := r
    cases hahead
    rfl

/-- Two lists of tokens before a reader begin alike. -/
theorem Reader.Faces.eq_nil {r : Reader} {ps : List Spelling} (hnil : r.Faces []) (h : r.Faces ps) :
    ps = [] := by
  obtain ⟨t, r₁, hpeek, ht, -⟩ := hnil.peek
  obtain ⟨u, r₂, hpeek', hu, -⟩ := h.peek
  cases hpeek.symm.trans hpeek'
  exact List.head?_eq_none_iff.1 (hu.symm.trans ht)

end Stylesheet
