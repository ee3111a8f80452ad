import Stylesheet.Proofs.Token.LookAhead
import Stylesheet.Proofs.Value.Facing
import Stylesheet.Proofs.Value.Steps

/-!
# Values with a word behind them

A value that is read from a text is read again when a word is put behind the text, and the word
becomes one more component of the last group. Reading goes along both texts in step: it sees the
same tokens up to the end of the first one, and only a space list goes on there.

* `outerComma`: whether one of some tokens is a comma outside of parentheses and interpolations.
* `Reading.Mirrors`: reading that is the same with more tokens behind.
* `Reading.mirrorsValues`: all that values are read by.
* `Reading.valueListIn_append_word`: the value with the word.
* `Reading.valueListIn_respaced`: the value with a space before it.
-/

namespace Stylesheet

open Lexeme

/-! ## Commas -/

/-- Whether one of some tokens is a comma outside of everything. The first one stands at `v`. -/
def outerComma (v : Level) : List Spelling → Bool
  | [] => false
  | p :: ps => (v = .outside && p.kind = .comma) || outerComma (v.after p.kind) ps

/-- Tokens that have no comma outside, and that leave the level as it was. If `inside` says so, only
within parentheses. -/
def Enclosed (inside : Bool) (qs : List Spelling) : Prop :=
  ∀ (v : Level) (ps : List Spelling), (inside = true → 0 < v.parens) →
    outerComma v (qs ++ ps) = outerComma v ps

section Enclosed

variable {inside : Bool} {p q : Spelling} {ps qs : List Spelling}

theorem enclosed_nil : Enclosed inside [] := fun _ _ _ => rfl

theorem Enclosed.append (hps : Enclosed inside ps) (hqs : Enclosed inside qs) :
    Enclosed inside (ps ++ qs) := by
  intro v rest hv
  rw [List.append_assoc, hps v _ hv, hqs v _ hv]

theorem Enclosed.mono (h : Enclosed false qs) : Enclosed inside qs :=
  fun v ps _ => h v ps fun hfalse => absurd hfalse Bool.false_ne_true

/-- The kinds of tokens that count for commas outside. -/
def nestingKinds : List TokenKind := [.comma, .leftParen, .rightParen, .interpolation, .rightBrace]

theorem enclosed_single (hp : p.kind ∉ nestingKinds) : Enclosed inside [p] := by
  intro v ps _
  simp only [nestingKinds, List.mem_cons, List.not_mem_nil, or_false, not_or] at hp
  have hafter : v.after p.kind = v := by
    unfold Level.after
    split <;> simp_all
  rw [List.singleton_append, outerComma, hafter]
  simp [hp]

theorem enclosed_token {t : Token} (ht : t.kind ∉ nestingKinds) : Enclosed inside [t.spelling] :=
  enclosed_single ht

theorem enclosed_operator {g : Grammar} {op : Operator} (hp : g.operator? p.kind = some op) :
    Enclosed inside [p] := by
  refine enclosed_single ?_
  unfold Grammar.operator? at hp
  split at hp
  · cases hp
  · split at hp <;> simp_all [nestingKinds]

theorem enclosed_comma (hp : p.kind = .comma) : Enclosed true [p] := by
  intro v ps hv
  have hne : v ≠ .outside := by
    rintro rfl
    exact absurd (hv rfl) (by decide)
  rw [List.singleton_append, outerComma, hp]
  simp [hne, Level.after]

theorem Enclosed.parens (h : Enclosed true qs) (hp : p.kind = .leftParen)
    (hq : q.kind = .rightParen) : Enclosed false (p :: (qs ++ [q])) := by
  intro v ps _
  have hinner := h (v.after .leftParen) (q :: ps) fun _ => Nat.succ_pos _
  rw [List.cons_append, List.append_assoc, outerComma, hp, List.singleton_append, hinner,
    outerComma, hq]
  simp [Level.after]

theorem Enclosed.braces (h : Enclosed false qs) (hp : p.kind = .interpolation)
    (hq : q.kind = .rightBrace) : Enclosed false (p :: (qs ++ [q])) := by
  intro v ps hv
  have hinner := h (v.after .interpolation) (q :: ps) fun hfalse => absurd hfalse Bool.false_ne_true
  rw [List.cons_append, List.append_assoc, outerComma, hp, List.singleton_append, hinner,
    outerComma, hq]
  simp [Level.after]

end Enclosed

/-! ## Reading in step -/

/-- Tokens of which the first is a word after a space. -/
def StartsWord (tail : List Spelling) : Prop := ∃ text rest, tail = ⟨.ident, text, true⟩ :: rest

/-- To the tests after an operand, a word is like the end. -/
theorem StartsWord.head? {tail : List Spelling} (htail : StartsWord tail) (ps : List Spelling) :
    ((ps ++ tail).head?.any fun p => p.kind = .leftParen && !p.spaced) =
        (ps.head?.any fun p => p.kind = .leftParen && !p.spaced) ∧
      ∀ g : Grammar, ((ps ++ tail).head?.map Spelling.kind).bind g.operator? =
        (ps.head?.map Spelling.kind).bind g.operator? := by
  obtain ⟨text, rest, rfl⟩ := htail
  cases ps with
  | nil => simp [Grammar.operator?]
  | cons p ps => exact ⟨rfl, fun _ => rfl⟩

namespace Reading

variable {α β : Type} {tail : List Spelling}

/-- Reading takes some tokens, of which `P` holds, and gives the same with `tail` behind them all.
Unless it is `tight`, something has to be left between. -/
def Mirrors (tail : List Spelling) (tight : Bool) (P : List Spelling → Prop) (x : Reading α) :
    Prop :=
  ∀ ⦃ps : List Spelling⦄ ⦃r : Reader⦄ ⦃a : α⦄ ⦃r' : Reader⦄, r.Faces ps → x r = .ok (a, r') →
    ∃ qs ps', ps = qs ++ ps' ∧ P qs ∧ r'.Faces ps' ∧
      (tight = true ∨ ps' ≠ [] → ∀ s : Reader, s.Faces (ps ++ tail) →
        Runs x s fun b s' => b = a ∧ s'.Faces (ps' ++ tail))

theorem Mirrors.bind {tight tight' : Bool} {P Q R : List Spelling → Prop} {x : Reading α}
    {f : α → Reading β} (hx : Mirrors tail tight P x) (hf : ∀ a, Mirrors tail tight' Q (f a))
    (htight : tight' = true → tight = true)
    (hR : ∀ qs qs', P qs → Q qs' → R (qs ++ qs')) : Mirrors tail tight' R (x >>= f) := by
  intro ps r b r' hr hrun
  obtain ⟨a, r₁, hxa, hfa⟩ := ok_of_bind hrun
  obtain ⟨qs, ps₁, rfl, hP, hr₁, hsame⟩ := hx hr hxa
  obtain ⟨qs', ps', rfl, hQ, hr', hsame'⟩ := hf a hr₁ hfa
  refine ⟨qs ++ qs', ps', (List.append_assoc _ _ _).symm, hR _ _ hP hQ, hr', fun hleft s hs => ?_⟩
  have hmiddle : tight = true ∨ qs' ++ ps' ≠ [] :=
    hleft.imp htight fun hne => List.append_ne_nil_of_right_ne_nil _ hne
  obtain ⟨a', s₁, hrun₁, rfl, hs₁⟩ := hsame hmiddle s hs
  exact runs_bind ⟨a', s₁, hrun₁, hsame' hleft s₁ hs₁⟩

theorem Mirrors.of_imp {tight : Bool} {P Q : List Spelling → Prop} {x : Reading α}
    (hx : Mirrors tail tight P x) (h : ∀ qs, P qs → Q qs) : Mirrors tail tight Q x := by
  intro ps r a r' hr hrun
  obtain ⟨qs, ps', hps, hP, hr', hsame⟩ := hx hr hrun
  exact ⟨qs, ps', hps, h qs hP, hr', hsame⟩

/-! ### Single steps -/

theorem head?_append_of_ne {ps : List Spelling} (hps : ps ≠ []) :
    (ps ++ tail).head? = ps.head? := by
  cases ps with
  | nil => exact absurd rfl hps
  | cons p ps => rfl

/-- Reading that goes on after the token `t`, and in the same way after a token of its kind and
text. -/
def MirrorsAfter (tail : List Spelling) (t : Token) (f : Token → Reading α) : Prop :=
  ∀ ⦃ps : List Spelling⦄ ⦃r : Reader⦄ ⦃a : α⦄ ⦃r' : Reader⦄, r.Faces ps → r.ahead = none →
    f t r = .ok (a, r') →
    ∃ qs ps', ps = qs ++ ps' ∧ Enclosed false (t.spelling :: qs) ∧ r'.Faces ps' ∧
      ∀ u : Token, u.kind = t.kind → u.text = t.text → ∀ s : Reader, s.Faces (ps ++ tail) →
        s.ahead = none → Runs (f u) s fun b s' => b = a ∧ s'.Faces (ps' ++ tail)

theorem MirrorsAfter.congr {t : Token} {f f' : Token → Reading α} (h : MirrorsAfter tail t f')
    (hf : ∀ u : Token, u.kind = t.kind → f u = f' u) : MirrorsAfter tail t f := by
  intro ps r a r' hr hahead hrun
  rw [hf t rfl] at hrun
  obtain ⟨qs, ps', hps, hqs, hr', hsame⟩ := h hr hahead hrun
  refine ⟨qs, ps', hps, hqs, hr', fun u hkind htext s hs hahead' => ?_⟩
  rw [hf u hkind]
  exact hsame u hkind htext s hs hahead'

theorem mirrors_require {f : Token → Reading α} (hf : ∀ t, MirrorsAfter tail t f)
    (reading : Construct) : Mirrors tail true (Enclosed false) (require reading >>= f) := by
  intro ps r a r' hr hrun
  obtain ⟨t, r₁, hrequire, hrun⟩ := ok_of_bind hrun
  obtain ⟨p, ps, rfl⟩ := hr.of_require hrequire
  obtain ⟨t', r₁', hrequire', rfl, hr₁, hahead⟩ := hr.require reading
  cases hrequire.symm.trans hrequire'
  obtain ⟨qs, ps', rfl, hqs, hr', hsame⟩ := hf t hr₁ hahead hrun
  refine ⟨t.spelling :: qs, ps', rfl, hqs, hr', fun _ s hs => ?_⟩
  rw [List.cons_append] at hs
  obtain ⟨u, s₁, hrequire', hu, hs₁, hahead'⟩ := hs.require reading
  obtain ⟨hkind, htext, -⟩ := Spelling.mk.inj hu
  exact runs_of_ok hrequire' (hsame u hkind htext s₁ hs₁ hahead')

/-- A token that is taken by itself. -/
theorem mirrorsAfter_pure {t : Token} (ht : t.kind ∉ nestingKinds) {f : Token → α}
    (hf : ∀ u : Token, u.kind = t.kind → u.text = t.text → f u = f t) :
    MirrorsAfter tail t fun u => pure (f u) := by
  intro ps r a r' hr _ hrun
  cases hrun
  refine ⟨[], ps, rfl, enclosed_single ht, hr, fun u hkind htext s hs _ => ?_⟩
  exact runs_pure ⟨hf u hkind htext, hs⟩

theorem mirrorsAfter_number (htail : StartsWord tail) {t : Token} (ht : t.kind = .number) :
    MirrorsAfter tail t quantity := by
  have hnumber : Enclosed false [t.spelling] := enclosed_token (by rw [ht]; decide)
  intro ps r a r' hr _ hrun
  cases hn : Numeral.read? t.text with
  | none =>
    rw [quantity, hn] at hrun
    cases hrun
  | some n =>
    by_cases hunit : ∃ p ps', ps = p :: ps' ∧ p.kind = .unit
    · obtain ⟨p, ps', rfl, hkind⟩ := hunit
      obtain ⟨r₁, hquantity, hr₁⟩ := hr.quantity_unit hn hkind
      cases hquantity.symm.trans hrun
      have hunit : Enclosed false [p] := enclosed_single (by rw [hkind]; decide)
      refine ⟨[p], ps', rfl, hnumber.append hunit, hr₁, fun u _ hu s hs _ => ?_⟩
      obtain ⟨s₁, hquantity', hs₁⟩ := hs.quantity_unit (hu ▸ hn) hkind
      exact ⟨_, s₁, hquantity', rfl, hs₁⟩
    · have hplain : ∀ p ∈ ps.head?, p.kind ≠ .unit := by
        intro p hp hkind
        obtain ⟨ps', rfl⟩ := List.head?_eq_some_iff.1 hp
        exact hunit ⟨p, ps', rfl, hkind⟩
      have hplain' : ∀ p ∈ (ps ++ tail).head?, p.kind ≠ .unit := by
        obtain ⟨text, rest, rfl⟩ := htail
        cases ps with
        | nil =>
          rintro p ⟨⟩
          simp
        | cons p ps => exact hplain
      obtain ⟨r₁, hquantity, hr₁⟩ := hr.quantity_plain hn hplain
      cases hquantity.symm.trans hrun
      refine ⟨[], ps, rfl, hnumber, hr₁, fun u _ hu s hs _ => ?_⟩
      obtain ⟨s₁, hquantity', hs₁⟩ := hs.quantity_plain (hu ▸ hn) hplain'
      exact ⟨_, s₁, hquantity', rfl, hs₁⟩

theorem mirrorsAfter_verbatim (t : Token) : MirrorsAfter tail t fun u =>
    if u.kind.isVerbatim then pure (Value.literal u.text) else unexpected .value u := by
  by_cases hverbatim : t.kind.isVerbatim = true
  · have hkind : t.kind ∉ nestingKinds := by
      simp only [nestingKinds, List.mem_cons, List.not_mem_nil, or_false]
      rintro (h | h | h | h | h) <;> rw [h] at hverbatim <;> cases hverbatim
    have hpure : MirrorsAfter tail t fun u => pure (Value.literal u.text) :=
      mirrorsAfter_pure hkind fun u _ htext => congrArg Value.literal htext
    refine hpure.congr fun u hu => ?_
    rw [hu, if_pos hverbatim]
  · intro ps r a r' _ _ hrun
    dsimp only at hrun
    rw [if_neg hverbatim] at hrun
    cases hrun

/-! ### Everything that values are read by -/

structure MirrorsValues (tail : List Spelling) (n : Nat) : Prop where
  valueList : ∀ g, Mirrors tail false (Enclosed true) (valueListIn g n)
  groups : ∀ g groups, Mirrors tail false (Enclosed true) (groupsIn g groups n)
  spaceList : ∀ g components, Mirrors tail false (Enclosed false) (spaceListIn g components n)
  binary : ∀ g least, Mirrors tail true (Enclosed false) (binaryIn g least n)
  operators : ∀ g least left, Mirrors tail true (Enclosed false) (operatorsIn g least left n)
  primary : ∀ g, Mirrors tail true (Enclosed false) (primaryIn g n)
  call : ∀ g name, Mirrors tail true (Enclosed false) (callIn g name n)
  /-- The mode is set here, which takes back a token that was read ahead. -/
  interpolation : ∀ g ⦃ps : List Spelling⦄ ⦃r : Reader⦄ ⦃a : Value⦄ ⦃r' : Reader⦄, r.Faces ps →
    r.ahead = none → interpolationIn g n r = .ok (a, r') →
    ∃ qs ps', ps = qs ++ ps' ∧
      (∀ p : Spelling, p.kind = .interpolation → Enclosed false (p :: qs)) ∧
      r'.Faces ps' ∧ r'.ahead = none ∧ ∀ s : Reader, s.Faces (ps ++ tail) → s.ahead = none →
        Runs (interpolationIn g n) s fun b s' => b = a ∧ s'.Faces (ps' ++ tail) ∧ s'.ahead = none

namespace MirrorsValues

variable {g : Grammar} {n : Nat}

theorem groups_succ (ih : MirrorsValues tail n) (groups : List Value) :
    Mirrors tail false (Enclosed true) (groupsIn g groups (n + 1)) := by
  have hmore : Mirrors tail false (Enclosed true) (spaceListIn g [] n >>= fun group =>
      groupsIn g (group :: groups) n) :=
    ((ih.spaceList g []).of_imp fun _ hqs => hqs.mono).bind (fun _ => ih.groups g _)
      (fun h => h) fun _ _ hqs hqs' => hqs.append hqs'
  intro ps r a r' hr hrun
  by_cases hcomma : ∀ p ∈ ps.head?, p.kind ≠ .comma
  · obtain ⟨r₁, hgroups, hr₁⟩ := hr.groupsIn_end hcomma groups n
    cases hgroups.symm.trans hrun
    refine ⟨[], ps, rfl, enclosed_nil, hr₁, fun hleft s hs => ?_⟩
    have hne : ps ≠ [] := hleft.resolve_left Bool.false_ne_true
    obtain ⟨s₁, hgroups', hs₁⟩ := hs.groupsIn_end (by rwa [head?_append_of_ne hne]) groups n
    exact ⟨_, s₁, hgroups', rfl, hs₁⟩
  · cases ps with
    | nil => exact absurd (by simp) hcomma
    | cons p ps =>
      have hp : p.kind = .comma := by simpa using hcomma
      obtain ⟨r₁, hr₁, hgroups⟩ := hr.groupsIn_comma hp groups
      rw [hgroups] at hrun
      obtain ⟨qs, ps', rfl, hqs, hr', hsame⟩ := hmore hr₁ hrun
      refine ⟨p :: qs, ps', rfl, (enclosed_comma hp).append hqs, hr', fun hleft s hs => ?_⟩
      rw [List.cons_append] at hs
      obtain ⟨s₁, hs₁, hgroups'⟩ := hs.groupsIn_comma hp groups
      obtain ⟨b, s', hrun', hb⟩ := hsame hleft s₁ hs₁
      exact ⟨b, s', (hgroups' n).trans hrun', hb⟩

theorem spaceList_succ (ih : MirrorsValues tail n) (components : List Value) :
    Mirrors tail false (Enclosed false) (spaceListIn g components (n + 1)) := by
  have hmore : ∀ spaced : Bool, Mirrors tail false (Enclosed false) (binaryIn g 0 n >>= fun term =>
      spaceListIn g (grown components spaced term) n) :=
    fun _ => (ih.binary g 0).bind (fun _ => ih.spaceList g _)
      (fun h => absurd h Bool.false_ne_true) fun _ _ hqs hqs' => hqs.append hqs'
  intro ps r a r' hr hrun
  by_cases hends : ∀ p ∈ ps.head?, p.kind.endsList = true
  · obtain ⟨r₁, hlist, hr₁⟩ := hr.spaceListIn_end hends components n
    cases hlist.symm.trans hrun
    refine ⟨[], ps, rfl, enclosed_nil, hr₁, fun hleft s hs => ?_⟩
    have hne : ps ≠ [] := hleft.resolve_left Bool.false_ne_true
    obtain ⟨s₁, hlist', hs₁⟩ := hs.spaceListIn_end (by rwa [head?_append_of_ne hne])
      components n
    exact ⟨_, s₁, hlist', rfl, hs₁⟩
  · cases ps with
    | nil => exact absurd (by simp) hends
    | cons p ps =>
      have hp : p.kind.endsList = false := by simpa using hends
      obtain ⟨r₁, hr₁, hlist⟩ := hr.spaceListIn_token hp components
      rw [hlist] at hrun
      obtain ⟨qs, ps', hps, hqs, hr', hsame⟩ := hmore p.spaced hr₁ hrun
      refine ⟨qs, ps', hps, hqs, hr', fun hleft s hs => ?_⟩
      rw [List.cons_append] at hs
      obtain ⟨s₁, hs₁, hlist'⟩ := hs.spaceListIn_token hp components
      obtain ⟨b, s', hrun', hb⟩ := hsame hleft s₁ hs₁
      exact ⟨b, s', (hlist' n).trans hrun', hb⟩

theorem operators_succ (htail : StartsWord tail) (ih : MirrorsValues tail n) (least : Nat)
    (left : Value) : Mirrors tail true (Enclosed false) (operatorsIn g least left (n + 1)) := by
  have hmore : ∀ op : Operator, Mirrors tail true (Enclosed false)
      (binaryIn g (op.precedence + 1) n >>= fun right =>
        operatorsIn g least (.binary left op right) n) :=
    fun op => (ih.binary g _).bind (fun _ => ih.operators g least _) (fun _ => rfl)
      fun _ _ hqs hqs' => hqs.append hqs'
  intro ps r a r' hr hrun
  by_cases hend : ∀ op ∈ (ps.head?.map Spelling.kind).bind g.operator?, op.precedence < least
  · obtain ⟨r₁, hoperators, hr₁⟩ := hr.operatorsIn_end hend left n
    cases hoperators.symm.trans hrun
    refine ⟨[], ps, rfl, enclosed_nil, hr₁, fun _ s hs => ?_⟩
    obtain ⟨s₁, hoperators', hs₁⟩ :=
      hs.operatorsIn_end (by rwa [(htail.head? ps).2 g]) left n
    exact ⟨_, s₁, hoperators', rfl, hs₁⟩
  · cases ps with
    | nil => exact absurd (by simp) hend
    | cons p ps =>
      obtain ⟨op, hop, hleast⟩ : ∃ op, g.operator? p.kind = some op ∧ ¬ op.precedence < least := by
        simpa using hend
      obtain ⟨r₁, hoperators, hr₁⟩ := hr.operatorsIn_operator hop hleast left n
      rw [hoperators] at hrun
      obtain ⟨qs, ps', rfl, hqs, hr', hsame⟩ := hmore op hr₁ hrun
      refine ⟨p :: qs, ps', rfl, (enclosed_operator hop).append hqs, hr', fun hleft s hs => ?_⟩
      rw [List.cons_append] at hs
      obtain ⟨s₁, hoperators', hs₁⟩ := hs.operatorsIn_operator hop hleast left n
      obtain ⟨b, s', hrun', hb⟩ := hsame hleft s₁ hs₁
      exact ⟨b, s', hoperators'.trans hrun', hb⟩

theorem after_ident (htail : StartsWord tail) (ih : MirrorsValues tail n) {t : Token}
    (ht : t.kind = .ident) : MirrorsAfter tail t fun u => callFollows >>= fun follows =>
      if follows then callIn g u.text n else pure (.ofIdent u.text) := by
  have hident : Enclosed false [t.spelling] := enclosed_token (by rw [ht]; decide)
  intro ps r a r' hr _ hrun
  dsimp only at hrun
  obtain ⟨r₁, hfollows, hr₁⟩ := hr.callFollows
  rw [bind_of_ok hfollows] at hrun
  split at hrun
  · rename_i hcall
    obtain ⟨qs, ps', rfl, hqs, hr', hsame⟩ := ih.call g t.text hr₁ hrun
    refine ⟨qs, ps', rfl, hident.append hqs, hr', fun u _ htext s hs _ => ?_⟩
    obtain ⟨s₁, hfollows', hs₁⟩ := hs.callFollows
    rw [(htail.head? _).1] at hfollows'
    refine runs_of_ok hfollows' ?_
    rw [if_pos hcall, htext]
    exact hsame (.inl rfl) s₁ hs₁
  · rename_i hcall
    cases hrun
    refine ⟨[], ps, rfl, hident, hr₁, fun u _ htext s hs _ => ?_⟩
    obtain ⟨s₁, hfollows', hs₁⟩ := hs.callFollows
    rw [(htail.head? _).1] at hfollows'
    refine runs_of_ok hfollows' ?_
    rw [if_neg hcall, htext]
    exact runs_pure ⟨rfl, hs₁⟩

theorem after_interpolation (ih : MirrorsValues tail n) {t : Token} (ht : t.kind = .interpolation) :
    MirrorsAfter tail t fun _ => interpolationIn g n >>= fun v =>
      setMode .value >>= fun _ => pure (Value.joined [v]) := by
  intro ps r a r' hr hahead hrun
  obtain ⟨v, r₁, hinner, hrun⟩ := ok_of_bind hrun
  obtain ⟨qs, ps', rfl, hqs, hr₁, hahead₁, hsame⟩ := ih.interpolation g hr hahead hinner
  rw [bind_of_ok (hr₁.setMode hahead₁)] at hrun
  cases hrun
  refine ⟨qs, ps', rfl, hqs _ ht, hr₁, fun u _ _ s hs hahead' => ?_⟩
  obtain ⟨v', s₁, hinner', rfl, hs₁, hahead₁'⟩ := hsame s hs hahead'
  exact runs_of_ok hinner' (runs_of_ok (hs₁.setMode hahead₁') (runs_pure ⟨rfl, hs₁⟩))

theorem after_leftParen (ih : MirrorsValues tail n) {t : Token} (ht : t.kind = .leftParen) :
    MirrorsAfter tail t fun u => valueListIn g n >>= fun v =>
      closeParen u.position .value >>= fun _ => pure v := by
  intro ps r a r' hr _ hrun
  obtain ⟨v, r₁, hinner, hrun⟩ := ok_of_bind hrun
  obtain ⟨_, r₂, hclose, hpure⟩ := ok_of_bind hrun
  obtain ⟨qs, ps₁, rfl, hqs, hr₁, hsame⟩ := ih.valueList g hr hinner
  obtain ⟨q, ps', rfl, hq, hr₂⟩ := hr₁.of_closeParen hclose
  cases hpure
  refine ⟨qs ++ [q], ps', by simp, hqs.parens ht hq, hr₂, fun u _ _ s hs _ => ?_⟩
  obtain ⟨v', s₁, hinner', rfl, hs₁⟩ := hsame (.inr (List.cons_ne_nil _ _)) s hs
  rw [List.cons_append] at hs₁
  obtain ⟨s₂, hclose', hs₂⟩ := hs₁.closeParen hq u.position .value
  exact runs_of_ok hinner' (runs_of_ok hclose' (runs_pure ⟨rfl, hs₂⟩))

theorem primary_succ (htail : StartsWord tail) (ih : MirrorsValues tail n) :
    Mirrors tail true (Enclosed false) (primaryIn g (n + 1)) := by
  rw [primaryIn]
  refine mirrors_require (fun t => ?_) .value
  by_cases hnumber : t.kind = .number
  · refine (mirrorsAfter_number htail hnumber).congr fun u hu => ?_
    rw [hu, hnumber]
  by_cases hreference : t.kind = .reference
  · have hpure : MirrorsAfter tail t fun u => pure (Value.reference u.name) :=
      mirrorsAfter_pure (by rw [hreference]; decide) fun u hkind htext => by
        rw [Token.name, Token.name, hkind, htext]
    refine hpure.congr fun u hu => ?_
    rw [hu, hreference]
  by_cases hident : t.kind = .ident
  · refine (ih.after_ident (g := g) htail hident).congr fun u hu => ?_
    rw [hu, hident]
  by_cases hinterpolation : t.kind = .interpolation
  · refine (ih.after_interpolation (g := g) hinterpolation).congr fun u hu => ?_
    rw [hu, hinterpolation]
  by_cases hparen : t.kind = .leftParen
  · refine (ih.after_leftParen (g := g) hparen).congr fun u hu => ?_
    rw [hu, hparen]
  refine (mirrorsAfter_verbatim t).congr fun u hu => ?_
  rw [hu]
  split
  case h_6 => rfl
  all_goals contradiction

theorem call_succ (ih : MirrorsValues tail n) (name : String) :
    Mirrors tail true (Enclosed false) (callIn g name (n + 1)) := by
  intro ps r a r' hr hrun
  rw [callIn] at hrun
  obtain ⟨opening, r₁, hopen, hrun⟩ := ok_of_bind hrun
  obtain ⟨p, ps, rfl, hp, hr₁, -⟩ := hr.of_expect hopen
  obtain ⟨r₂, hkind, hr₂⟩ := hr₁.peekKind
  rw [bind_of_ok hkind] at hrun
  split at hrun
  · rename_i hempty
    obtain ⟨args, r₃, hargs, hrun⟩ := ok_of_bind hrun
    cases hargs
    obtain ⟨_, r₄, hclose, hpure⟩ := ok_of_bind hrun
    obtain ⟨q, ps', rfl, hq, hr₄⟩ := hr₂.of_closeParen hclose
    cases hpure
    refine ⟨[p, q], ps', rfl, enclosed_nil.parens hp hq, hr₄, fun _ s hs => ?_⟩
    rw [List.cons_append, List.cons_append] at hs
    obtain ⟨opening', s₁, hopen', -, hs₁, -⟩ := hs.expect hp .function
    obtain ⟨s₂, hkind', hs₂⟩ := hs₁.peekKind
    obtain ⟨s₃, hclose', hs₃⟩ := hs₂.closeParen hq opening'.position .function
    rw [callIn]
    refine runs_of_ok hopen' (runs_of_ok hkind' ?_)
    dsimp only
    rw [List.head?_cons, Option.map_some, hq, if_pos rfl]
    exact runs_bind (runs_pure (runs_of_ok hclose' (runs_pure ⟨rfl, hs₃⟩)))
  · rename_i hargs
    obtain ⟨args, r₃, hinner, hrun⟩ := ok_of_bind hrun
    obtain ⟨_, r₄, hclose, hpure⟩ := ok_of_bind hrun
    obtain ⟨qs, ps₁, rfl, hqs, hr₃, hsame⟩ := ih.valueList _ hr₂ hinner
    obtain ⟨q, ps', rfl, hq, hr₄⟩ := hr₃.of_closeParen hclose
    cases hpure
    refine ⟨p :: (qs ++ [q]), ps', by simp, hqs.parens hp hq, hr₄, fun _ s hs => ?_⟩
    rw [List.cons_append] at hs
    obtain ⟨opening', s₁, hopen', -, hs₁, -⟩ := hs.expect hp .function
    obtain ⟨s₂, hkind', hs₂⟩ := hs₁.peekKind
    obtain ⟨args', s₃, hinner', rfl, hs₃⟩ := hsame (.inr (List.cons_ne_nil _ _)) s₂ hs₂
    rw [List.cons_append] at hs₃
    obtain ⟨s₄, hclose', hs₄⟩ := hs₃.closeParen hq opening'.position .function
    rw [callIn]
    refine runs_of_ok hopen' (runs_of_ok hkind' ?_)
    dsimp only
    rw [head?_append_of_ne (by simp), if_neg hargs]
    exact runs_of_ok hinner' (runs_of_ok hclose' (runs_pure ⟨rfl, hs₄⟩))

theorem interpolation_succ (ih : MirrorsValues tail n) ⦃ps : List Spelling⦄ ⦃r : Reader⦄
    ⦃a : Value⦄ ⦃r' : Reader⦄ (hr : r.Faces ps) (hahead : r.ahead = none)
    (hrun : interpolationIn g (n + 1) r = .ok (a, r')) :
    ∃ qs ps', ps = qs ++ ps' ∧
      (∀ p : Spelling, p.kind = .interpolation → Enclosed false (p :: qs)) ∧
      r'.Faces ps' ∧ r'.ahead = none ∧ ∀ s : Reader, s.Faces (ps ++ tail) → s.ahead = none →
        Runs (interpolationIn g (n + 1)) s fun b s' =>
          b = a ∧ s'.Faces (ps' ++ tail) ∧ s'.ahead = none := by
  rw [interpolationIn, bind_of_ok (hr.setMode hahead)] at hrun
  obtain ⟨v, r₁, hinner, hrun⟩ := ok_of_bind hrun
  obtain ⟨t, r₂, hclose, hpure⟩ := ok_of_bind hrun
  obtain ⟨qs, ps₁, rfl, hqs, hr₁, hsame⟩ := ih.binary _ 0 hr hinner
  obtain ⟨q, ps', rfl, hq, hr₂, hahead₂⟩ := hr₁.of_expect hclose
  cases hpure
  refine ⟨qs ++ [q], ps', by simp, fun p hp => hqs.braces hp hq, hr₂, hahead₂,
    fun s hs hahead' => ?_⟩
  obtain ⟨v', s₁, hinner', rfl, hs₁⟩ := hsame (.inl rfl) s hs
  rw [List.cons_append] at hs₁
  obtain ⟨t', s₂, hclose', -, hs₂, hahead₂'⟩ := hs₁.expect hq .interpolation
  rw [interpolationIn]
  exact runs_of_ok (hs.setMode hahead') (runs_of_ok hinner' (runs_of_ok hclose'
    (runs_pure ⟨rfl, hs₂, hahead₂'⟩)))

end MirrorsValues

theorem mirrorsValues (htail : StartsWord tail) (n : Nat) : MirrorsValues tail n := by
  induction n with
  | zero =>
    constructor
    case interpolation =>
      intro g ps r a r' _ _ hrun
      cases hrun
    all_goals
      intros
      intro ps r a r' _ hrun
      cases hrun
  | succ n ih =>
    exact {
      valueList := fun g => by
        rw [valueListIn]
        exact ((ih.spaceList g []).of_imp fun _ hqs => hqs.mono).bind (fun _ => ih.groups g _)
          (fun h => h) fun _ _ hqs hqs' => hqs.append hqs'
      groups := fun _ => ih.groups_succ
      spaceList := fun _ => ih.spaceList_succ
      binary := fun g least => by
        rw [binaryIn]
        exact (ih.primary g).bind (fun _ => ih.operators g least _) (fun h => h)
          fun _ _ hqs hqs' => hqs.append hqs'
      operators := fun _ => ih.operators_succ htail
      primary := fun _ => ih.primary_succ htail
      call := fun _ => ih.call_succ
      interpolation := fun _ => ih.interpolation_succ }

/-! ## One more word -/

section Word

variable {g : Grammar} {word : String} {q : Spelling} {rest : List Spelling}

/-- A word by itself, before the end of a statement. -/
theorem binaryIn_word {s : Reader} (hq : q.kind = .semicolon)
    (hs : s.Faces (⟨.ident, word, true⟩ :: q :: rest)) :
    Runs (binaryIn g 0 2) s fun b s' => b = .ofIdent word ∧ s'.Faces (q :: rest) := by
  obtain ⟨t, s₁, hrequire, ht, hs₁, -⟩ := hs.require .value
  obtain ⟨s₂, hfollows, hs₂⟩ := hs₁.callFollows
  obtain ⟨s₃, hoperators, hs₃⟩ := hs₂.operatorsIn_end (g := g) (by simp [Grammar.operator?, hq])
    (.ofIdent word) 0
  obtain ⟨hkind, htext, -⟩ := Spelling.mk.inj ht
  have hprimary : primaryIn g 1 s = .ok (.ofIdent word, s₂) := by
    rw [primaryIn, bind_of_ok hrequire, hkind]
    dsimp only
    rw [bind_of_ok hfollows, htext]
    simp [hq]
    rfl
  rw [binaryIn]
  exact runs_of_ok hprimary ⟨_, s₃, hoperators, rfl, hs₃⟩

/-- One more term of a space list, with as many steps as it takes. -/
theorem exists_runs_spaceListIn_token {s : Reader} {p : Spelling} {ps : List Spelling}
    {components : List Value} {Q : Value → Reader → Prop} (hs : s.Faces (p :: ps))
    (hp : p.kind.endsList = false)
    (h : ∀ s₁ : Reader, s₁.Faces (p :: ps) → ∃ n, Runs (binaryIn g 0 n) s₁ fun term s₂ =>
      ∃ m, Runs (spaceListIn g (grown components p.spaced term) m) s₂ Q) :
    ∃ m, Runs (spaceListIn g components m) s Q := by
  obtain ⟨s₁, hs₁, hlist⟩ := hs.spaceListIn_token hp components
  obtain ⟨m, b, s', hrun, hb⟩ := exists_runs_bind (growing_binaryIn g 0)
    (fun term => growing_spaceListIn g _) (h s₁ hs₁)
  exact ⟨m + 1, b, s', (hlist m).trans hrun, hb⟩

theorem spaceListIn_append_word (hq : q.kind = .semicolon) {n : Nat} {components : List Value}
    {ps : List Spelling} {r r' : Reader} {a : Value} (hr : r.Faces ps)
    (hrun : spaceListIn g components n r = .ok (a, r')) (hend : r'.Faces []) :
    ∃ items, a = .ofComponents items ∧
      ∀ s : Reader, s.Faces (ps ++ ⟨.ident, word, true⟩ :: q :: rest) →
        ∃ m, Runs (spaceListIn g components m) s fun b s' =>
          b = .ofComponents (items ++ [.ofIdent word]) ∧ s'.Faces (q :: rest) := by
  induction n generalizing components ps r with
  | zero => cases hrun
  | succ n ih =>
    cases ps with
    | nil =>
      -- The word is the last term; it stands after a space, so that nothing is joined to it.
      obtain ⟨r₁, hlist, -⟩ := hr.spaceListIn_end (by simp) components n
      cases hlist.symm.trans hrun
      refine ⟨components.reverse, rfl, fun s hs => ?_⟩
      refine exists_runs_spaceListIn_token hs rfl fun s₁ hs₁ => ⟨2, ?_⟩
      obtain ⟨term, s₂, hterm, rfl, hs₂⟩ := binaryIn_word (g := g) hq hs₁
      have hgrown : grown components true (.ofIdent word) = .ofIdent word :: components := by
        cases components <;> rfl
      obtain ⟨s₃, hlist', hs₃⟩ := hs₂.spaceListIn_end (g := g) (by simp [hq, TokenKind.endsList])
        (.ofIdent word :: components) 0
      refine ⟨_, s₂, hterm, 1, ?_⟩
      rw [hgrown]
      exact ⟨_, s₃, hlist', by simp, hs₃⟩
    | cons p ps =>
      cases hp : p.kind.endsList with
      | true =>
        obtain ⟨r₁, hlist, hr₁⟩ := hr.spaceListIn_end (by simp [hp]) components n
        cases hlist.symm.trans hrun
        cases hend.eq_nil hr₁
      | false =>
        obtain ⟨r₁, hr₁, hlist⟩ := hr.spaceListIn_token hp components
        rw [hlist] at hrun
        obtain ⟨term, r₂, hterm, hrun⟩ := ok_of_bind hrun
        obtain ⟨qs, ps', hps, -, hr₂, hsame⟩ :=
          (mirrorsValues ⟨word, q :: rest, rfl⟩ n).binary g 0 hr₁ hterm
        obtain ⟨items, ha, hmore⟩ := ih hr₂ hrun
        refine ⟨items, ha, fun s hs => ?_⟩
        rw [List.cons_append] at hs
        refine exists_runs_spaceListIn_token hs hp fun s₁ hs₁ => ⟨n, ?_⟩
        obtain ⟨term', s₂, hterm', rfl, hs₂⟩ := hsame (.inl rfl) s₁ hs₁
        exact ⟨term', s₂, hterm', hmore s₂ hs₂⟩

theorem exists_runs_groupsIn_comma {s : Reader} {p : Spelling} {ps : List Spelling}
    {groups : List Value} {Q : Value → Reader → Prop} (hs : s.Faces (p :: ps))
    (hp : p.kind = .comma)
    (h : ∀ s₁ : Reader, s₁.Faces ps → ∃ n, Runs (spaceListIn g [] n) s₁ fun group s₂ =>
      ∃ m, Runs (groupsIn g (group :: groups) m) s₂ Q) :
    ∃ m, Runs (groupsIn g groups m) s Q := by
  obtain ⟨s₁, hs₁, hgroups⟩ := hs.groupsIn_comma hp groups
  obtain ⟨m, b, s', hrun, hb⟩ := exists_runs_bind (growing_spaceListIn g [])
    (fun group => growing_groupsIn g _) (h s₁ hs₁)
  exact ⟨m + 1, b, s', (hgroups m).trans hrun, hb⟩

/-- At the end there are no more groups. -/
theorem groupsIn_nil {groups : List Value} {n : Nat} {r r' : Reader} {a : Value} (hr : r.Faces [])
    (hrun : groupsIn g groups n r = .ok (a, r')) : a = .ofGroups groups.reverse := by
  cases n with
  | zero => cases hrun
  | succ n =>
    obtain ⟨r₁, hgroups, -⟩ := hr.groupsIn_end (g := g) (by simp) groups n
    cases hgroups.symm.trans hrun
    rfl

theorem groupsIn_semicolon {groups : List Value} {s : Reader} (hq : q.kind = .semicolon)
    (hs : s.Faces (q :: rest)) : Runs (groupsIn g groups 1) s fun b s' =>
      b = .ofGroups groups.reverse ∧ s'.Faces (q :: rest) := by
  obtain ⟨s₁, hgroups, hs₁⟩ := hs.groupsIn_end (g := g) (by simp [hq]) groups 0
  exact ⟨_, s₁, hgroups, rfl, hs₁⟩

theorem groupsIn_append_word (hq : q.kind = .semicolon) {n : Nat} {groups : List Value}
    {ps : List Spelling} {r r' : Reader} {a : Value} (hr : r.Faces ps) (hps : ps ≠ [])
    (hrun : groupsIn g groups n r = .ok (a, r')) (hend : r'.Faces []) :
    outerComma .outside ps = true ∧
    ∃ more items, a = .ofGroups (groups.reverse ++ more ++ [.ofComponents items]) ∧
      ∀ s : Reader, s.Faces (ps ++ ⟨.ident, word, true⟩ :: q :: rest) →
        ∃ m, Runs (groupsIn g groups m) s fun b s' =>
          b = .ofGroups (groups.reverse ++ more ++ [.ofComponents (items ++ [.ofIdent word])]) ∧
            s'.Faces (q :: rest) := by
  induction n generalizing groups ps r with
  | zero => cases hrun
  | succ n ih =>
    cases ps with
    | nil => exact absurd rfl hps
    | cons p ps =>
      by_cases hp : p.kind = .comma
      · refine ⟨by simp [outerComma, hp], ?_⟩
        obtain ⟨r₁, hr₁, hgroups⟩ := hr.groupsIn_comma hp groups
        rw [hgroups] at hrun
        obtain ⟨group, r₂, hgroup, hrun⟩ := ok_of_bind hrun
        obtain ⟨qs, ps', hsplit, -, hr₂, hsame⟩ :=
          (mirrorsValues ⟨word, q :: rest, rfl⟩ n).spaceList g [] hr₁ hgroup
        by_cases hleft : ps' = []
        · -- This is the last group.
          subst hleft
          obtain rfl := groupsIn_nil hr₂ hrun
          obtain ⟨items, rfl, hword⟩ := spaceListIn_append_word hq hr₁ hgroup hr₂
          refine ⟨[], items, by simp, fun s hs => ?_⟩
          rw [List.cons_append] at hs
          refine exists_runs_groupsIn_comma hs hp fun s₁ hs₁ => ?_
          obtain ⟨m, group', s₂, hgroup', rfl, hs₂⟩ := hword s₁ hs₁
          obtain ⟨b, s₃, hrun', rfl, hs₃⟩ := groupsIn_semicolon (g := g) hq hs₂
          exact ⟨m, _, s₂, hgroup', 1, _, s₃, hrun', by simp, hs₃⟩
        · obtain ⟨-, more, items, rfl, hword⟩ := ih hr₂ hleft hrun
          refine ⟨group :: more, items, by simp, fun s hs => ?_⟩
          rw [List.cons_append] at hs
          refine exists_runs_groupsIn_comma hs hp fun s₁ hs₁ => ⟨n, ?_⟩
          obtain ⟨group', s₂, hgroup', rfl, hs₂⟩ := hsame (.inr hleft) s₁ hs₁
          obtain ⟨m, b, s₃, hrun', rfl, hs₃⟩ := hword s₂ hs₂
          exact ⟨group', s₂, hgroup', m, _, s₃, hrun', by simp, hs₃⟩
      · obtain ⟨r₁, hgroups, hr₁⟩ := hr.groupsIn_end (by simpa using hp) groups n
        cases hgroups.symm.trans hrun
        cases hend.eq_nil hr₁

/-- The word becomes one more component of the last group. It is the only group if no comma is
outside. -/
theorem valueListIn_append_word (hq : q.kind = .semicolon) {n : Nat} {ps : List Spelling}
    {r r' : Reader} {a : Value} (hr : r.Faces ps) (hrun : valueListIn g n r = .ok (a, r'))
    (hend : r'.Faces []) :
    ∃ groups items, a = .ofGroups (groups ++ [.ofComponents items]) ∧
      groups.isEmpty = !outerComma .outside ps ∧
      ∀ s : Reader, s.Faces (ps ++ ⟨.ident, word, true⟩ :: q :: rest) →
        ∃ m, Runs (valueListIn g m) s fun b s' =>
          b = .ofGroups (groups ++ [.ofComponents (items ++ [.ofIdent word])]) ∧
            s'.Faces (q :: rest) := by
  cases n with
  | zero => cases hrun
  | succ n =>
    rw [valueListIn] at hrun
    obtain ⟨first, r₁, hfirst, hrun⟩ := ok_of_bind hrun
    obtain ⟨qs, ps', rfl, hqs, hr₁, hsame⟩ :=
      (mirrorsValues ⟨word, q :: rest, rfl⟩ n).spaceList g [] hr hfirst
    have houter : outerComma .outside (qs ++ ps') = outerComma .outside ps' :=
      hqs _ _ fun hfalse => absurd hfalse Bool.false_ne_true
    have hjoin : ∀ {s : Reader} {Q : Value → Reader → Prop},
        (∃ m, Runs (spaceListIn g [] m) s fun first s₁ => ∃ m, Runs (groupsIn g [first] m) s₁ Q) →
        ∃ m, Runs (valueListIn g m) s Q := by
      intro s Q h
      obtain ⟨m, hm⟩ := exists_runs_bind (growing_spaceListIn g [])
        (fun first => growing_groupsIn g [first]) h
      refine ⟨m + 1, ?_⟩
      rwa [valueListIn]
    by_cases hleft : ps' = []
    · subst hleft
      obtain rfl := groupsIn_nil hr₁ hrun
      obtain ⟨items, rfl, hword⟩ := spaceListIn_append_word hq hr hfirst hr₁
      refine ⟨[], items, rfl, by rw [houter]; rfl, fun s hs => hjoin ?_⟩
      obtain ⟨m, first', s₁, hfirst', rfl, hs₁⟩ := hword s hs
      obtain ⟨b, s₂, hrun', rfl, hs₂⟩ := groupsIn_semicolon (g := g) hq hs₁
      exact ⟨m, _, s₁, hfirst', 1, _, s₂, hrun', rfl, hs₂⟩
    · obtain ⟨hcomma, more, items, rfl, hword⟩ := groupsIn_append_word hq hr₁ hleft hrun hend
      refine ⟨first :: more, items, by simp, by rw [houter, hcomma]; rfl, fun s hs => hjoin ?_⟩
      obtain ⟨first', s₁, hfirst', rfl, hs₁⟩ := hsame (.inr hleft) s hs
      obtain ⟨m, b, s₂, hrun', rfl, hs₂⟩ := hword s₁ hs₁
      exact ⟨n, first', s₁, hfirst', m, _, s₂, hrun', by simp, hs₂⟩

end Word

/-! ## The space before a value -/

section Space

variable {g : Grammar}

/-- The token with or without a space before it. -/
def respaced (t : Token) (spaced : Bool) : Token := { t with spaceBefore := spaced }

theorem binaryIn_respaced (least n : Nat) (l : Lexer) (t : Token) (spaced : Bool) (room : Nat) :
    binaryIn g least n ⟨l, some (respaced t spaced), room⟩ =
      binaryIn g least n ⟨l, some t, room⟩ := by
  have hprimary : ∀ n, primaryIn g n ⟨l, some (respaced t spaced), room⟩ =
      primaryIn g n ⟨l, some t, room⟩ := by
    intro n
    cases n with
    | zero => rfl
    | succ n =>
      rw [primaryIn]
      rfl
  cases n with
  | zero => rfl
  | succ n =>
    rw [binaryIn]
    exact congrArg (· >>= fun x => operatorsIn g least x.1 n x.2) (hprimary n)

theorem spaceListIn_respaced {t : Token} (ht : t.kind.endsList = false) (n : Nat) (l : Lexer)
    (spaced : Bool) (room : Nat) :
    spaceListIn g [] n ⟨l, some (respaced t spaced), room⟩ =
      spaceListIn g [] n ⟨l, some t, room⟩ := by
  cases n with
  | zero => rfl
  | succ n =>
    have hlist : ∀ u : Token, u.kind = t.kind → spaceListIn g [] (n + 1) ⟨l, some u, room⟩ =
        (binaryIn g 0 n >>= fun term => spaceListIn g [term] n) ⟨l, some u, room⟩ := by
      intro u hu
      rw [spaceListIn, bind_of_ok rfl]
      dsimp only
      rw [hu, if_neg (Bool.eq_false_iff.1 ht)]
    rw [hlist t rfl, hlist (respaced t spaced) rfl]
    exact congrArg (· >>= fun x => spaceListIn g [x.1] n x.2)
      (binaryIn_respaced 0 n l t spaced room)

/-- A value that begins with a comma, or with what ends it. -/
theorem groupsIn_respaced {t : Token} (groups : List Value) (n : Nat) (l : Lexer) (spaced : Bool)
    (room : Nat) :
    groupsIn g groups n ⟨l, some (respaced t spaced), room⟩ =
        groupsIn g groups n ⟨l, some t, room⟩ ∨
      ∀ a r', groupsIn g groups n ⟨l, some t, room⟩ = .ok (a, r') → r' = ⟨l, some t, room⟩ := by
  cases n with
  | zero => exact .inl rfl
  | succ n =>
    have hgroups : ∀ u : Token, u.kind = t.kind → groupsIn g groups (n + 1) ⟨l, some u, room⟩ =
        if t.kind = .comma then
          (spaceListIn g [] n >>= fun group => groupsIn g (group :: groups) n) ⟨l, none, room⟩
        else .ok (.ofGroups groups.reverse, ⟨l, some u, room⟩) := by
      intro u hu
      rw [groupsIn, bind_of_ok (a := some u.kind) rfl, hu]
      by_cases hcomma : t.kind = .comma
      · rw [hcomma, if_pos rfl, if_pos rfl, bind_of_ok rfl]
      · rw [if_neg (by simpa using hcomma), if_neg hcomma]
        rfl
    rw [hgroups t rfl, hgroups (respaced t spaced) rfl]
    by_cases hcomma : t.kind = .comma
    · exact .inl (by rw [if_pos hcomma, if_pos hcomma])
    · refine .inr fun a r' hrun => ?_
      rw [if_neg hcomma] at hrun
      cases hrun
      rfl

/-- Whether a space comes before a value makes no difference. -/
theorem valueListIn_respaced {n : Nat} {p : Spelling} {ps : List Spelling} {r r' : Reader}
    {a : Value} (hr : r.Faces (p :: ps)) (hrun : valueListIn g n r = .ok (a, r'))
    (hend : r'.Faces []) (spaced : Bool) :
    ∃ s : Reader, s.Faces ({ p with spaced := spaced } :: ps) ∧
      valueListIn g n s = .ok (a, r') := by
  obtain ⟨t, l, room, hpeek, rfl, hl⟩ := hr.peeked
  have ht : Reader.Faces ⟨l, some t, room⟩ (t.spelling :: ps) := .ahead rfl hl
  have hs : Reader.Faces ⟨l, some (respaced t spaced), room⟩
      ((respaced t spaced).spelling :: ps) := .ahead rfl hl
  refine ⟨_, hs, ?_⟩
  cases n with
  | zero => cases hrun
  | succ n =>
    rw [valueListIn] at hrun ⊢
    cases n with
    | zero => cases hrun
    | succ n =>
      have hlist : spaceListIn g [] (n + 1) r = spaceListIn g [] (n + 1) ⟨l, some t, room⟩ := by
        rw [spaceListIn, bind_of_ok hpeek, bind_of_ok rfl]
      obtain ⟨first, r₁, hfirst, hrun⟩ := ok_of_bind hrun
      rw [hlist] at hfirst
      cases hends : t.kind.endsList with
      | false =>
        rw [← spaceListIn_respaced hends (n + 1) l spaced room] at hfirst
        rw [bind_of_ok hfirst]
        exact hrun
      | true =>
        have hempty : ∀ u : Token, u.kind = t.kind → spaceListIn g [] (n + 1) ⟨l, some u, room⟩ =
            .ok (.ofComponents [], ⟨l, some u, room⟩) := by
          intro u hu
          rw [spaceListIn, bind_of_ok rfl]
          dsimp only
          rw [hu, if_pos hends]
          rfl
        cases (hempty t rfl).symm.trans hfirst
        rw [bind_of_ok (hempty (respaced t spaced) rfl)]
        rcases groupsIn_respaced [.ofComponents []] (n + 1) l spaced room with hsame | hstays
        · rw [hsame]
          exact hrun
        · cases hstays a r' hrun
          cases hend.eq_nil ht

end Space

end Reading

end Stylesheet
