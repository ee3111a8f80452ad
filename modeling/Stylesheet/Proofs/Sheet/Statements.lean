import Stylesheet.Proofs.Sheet.Passing

/-!
# Fragments of statements

What is read inside of a statement stays inside of a text, and matches the brackets that it opens.

* `Reading.continues_valueListIn`: values.
* `Reading.reaches_selector`, `Reading.ensures_prelude`: selectors and the preludes of rules.
* `Reading.continues_parameters`, `Reading.ensures_arguments`: parameters and arguments of mixins.
-/

namespace Stylesheet

namespace Reading

/-! ## Values -/

section Values

variable {source : List Char} (hsource : Bare source)
include hsource

theorem reaches_closeParen {L : Language Fragment} (opening : Position) (reading : Construct) :
    Reaches source (L * textual .value) .value (closeParen opening reading)
      (fun _ => L * textual .value * bracket .rightParen) .value := by
  refine Ensures.bind (ensures_next_reached hsource) fun t => ?_
  cases t with
  | none => exact ensures_fail _ _
  | some t =>
    dsimp only
    split
    next hkind =>
      intro r a r' hr h
      cases h
      rw [← hkind]
      exact (hr.1 t rfl).text
    next =>
      split
      · exact ensures_fail _ _
      · exact ensures_unexpected reading t

theorem continues_quantity (t : Token) : Continues source .value (quantity t) := by
  intro L
  unfold quantity
  split
  · exact ensures_fail _ _
  · refine (ensures_peek_text hsource).bind fun u => ?_
    cases u with
    | none => exact (Keeps.pure _).of_imp fun r hr => hr.1.1
    | some u =>
      dsimp only
      split
      next hunit =>
        have hskip : Ensures (Follows source L .value (some u.kind)) skip
            fun _ => Reader.Reached source (L * textual .value) .value :=
          ensures_skip_plain hsource (by rw [hunit]; rfl)
        exact Ensures.bind (hskip.of_imp fun r hr => hr.1) fun _ => Keeps.pure _
      next => exact (Keeps.pure _).of_imp fun r hr => hr.1.1

theorem continues_callFollows : Continues source .value callFollows := fun _ =>
  (ensures_peek_text hsource).bind fun _ => (Keeps.pure _).of_imp fun _ hr => hr.1.1

end Values

section Operands

theorem operator?_brackets {g : Grammar} {kind : TokenKind} {op : Operator}
    (h : g.operator? kind = some op) : kind.brackets = [] := by
  cases kind <;> first | rfl | simp [Grammar.operator?] at h

theorem isVerbatim_brackets {kind : TokenKind} (h : kind.isVerbatim = true) :
    kind.brackets = [] := by
  cases kind <;> first | rfl | cases h

variable {source : List Char} {L M : Language Fragment} {mode : LexicalMode} {α : Type}
  {p : Reading α} {Q : α → Reader → Prop}

theorem Ensures.of_plain {kind : TokenKind} (hkind : kind.brackets = [])
    (h : Ensures (Reader.Reached source L mode) p Q) :
    Ensures (Reader.Reached source (L * bracket kind) mode) p Q := by
  rw [bracket_eq_one hkind, mul_one]
  exact h

/-- A text may begin anywhere. -/
theorem Continues.begin (hp : Continues source mode p) :
    Reaches source L mode p (fun _ => L * textual mode) mode :=
  (hp L).of_imp fun _ hr => hr.mono (le_mul_of_one_le one_le_textual)

mutual

theorem continues_valueListIn (hsource : Bare source) : (g : Grammar) → (n : Nat) →
    Continues source .value (valueListIn g n)
  | g, 0 => fun _ => ensures_exhausted .value
  | g, n + 1 => by
    rw [valueListIn]
    exact (continues_spaceListIn hsource g [] n).bind fun first =>
      continues_groupsIn hsource g [first] n

theorem continues_groupsIn (hsource : Bare source) : (g : Grammar) → (groups : List Value) →
    (n : Nat) → Continues source .value (groupsIn g groups n)
  | g, groups, 0 => fun _ => ensures_exhausted .value
  | g, groups, n + 1 => by
    intro L
    rw [groupsIn]
    refine (ensures_peekKind_text hsource).bind fun kind => ?_
    split
    next hcomma =>
      subst hcomma
      refine Ensures.bind (ensures_skip_plain hsource rfl) fun _ => ?_
      exact (continues_spaceListIn hsource g [] n L).bind fun group =>
        continues_groupsIn hsource g (group :: groups) n L
    next => exact (Continues.pure _).of_follows

theorem continues_spaceListIn (hsource : Bare source) : (g : Grammar) →
    (components : List Value) → (n : Nat) → Continues source .value (spaceListIn g components n)
  | g, components, 0 => fun _ => ensures_exhausted .value
  | g, components, n + 1 => by
    intro L
    rw [spaceListIn]
    refine (ensures_peek_text hsource).bind fun t => ?_
    refine Ensures.of_imp (Continues.of_follows ?_) fun r hr => hr.1
    cases t with
    | none => exact .pure _
    | some t =>
      dsimp only
      split
      · exact .pure _
      · refine (continues_binaryIn hsource g 0 n).bind fun term => ?_
        split
        · exact continues_spaceListIn hsource g [term] n
        · split
          · exact continues_spaceListIn hsource g _ n
          · exact continues_spaceListIn hsource g _ n

theorem continues_binaryIn (hsource : Bare source) : (g : Grammar) → (least n : Nat) →
    Continues source .value (binaryIn g least n)
  | g, least, 0 => fun _ => ensures_exhausted .value
  | g, least, n + 1 => by
    rw [binaryIn]
    exact (continues_primaryIn hsource g n).bind fun left =>
      continues_operatorsIn hsource g least left n

theorem continues_operatorsIn (hsource : Bare source) : (g : Grammar) → (least : Nat) →
    (left : Value) → (n : Nat) → Continues source .value (operatorsIn g least left n)
  | g, least, left, 0 => fun _ => ensures_exhausted .value
  | g, least, left, n + 1 => by
    intro L
    rw [operatorsIn]
    refine (ensures_peekKind_text hsource).bind fun kind => ?_
    split
    next => exact (Continues.pure left).of_follows
    next op hop =>
      split
      · exact (Continues.pure left).of_follows
      · obtain ⟨kind, rfl, hop⟩ := Option.bind_eq_some_iff.1 hop
        refine Ensures.bind (ensures_skip_plain hsource (operator?_brackets hop)) fun _ => ?_
        exact (continues_binaryIn hsource g _ n L).bind fun right =>
          continues_operatorsIn hsource g least _ n L

theorem continues_primaryIn (hsource : Bare source) : (g : Grammar) → (n : Nat) →
    Continues source .value (primaryIn g n)
  | g, 0 => fun _ => ensures_exhausted .value
  | g, n + 1 => by
    intro L
    rw [primaryIn]
    refine (reaches_require hsource .value).bind fun t => ?_
    split
    next hkind => exact .of_plain (by rw [hkind]; rfl) (continues_quantity hsource t L)
    next hkind => exact .of_plain (by rw [hkind]; rfl) (Keeps.pure _)
    next hkind =>
      refine .of_plain (by rw [hkind]; rfl) ((continues_callFollows hsource L).bind fun follows => ?_)
      split
      · exact continues_callIn hsource g t.text n L
      · exact .pure _
    next hkind =>
      rw [hkind]
      refine (reaches_interpolationIn hsource g n _ _).bind fun v => ?_
      exact reaches_setMode.bind fun _ => .pure hole_absorbed
    next hkind =>
      rw [hkind]
      refine (continues_valueListIn hsource g n).begin.bind fun v => ?_
      exact (reaches_closeParen hsource t.position .value).bind fun _ =>
        .pure (parens_absorbed (by decide))
    next =>
      split
      next hverbatim => exact .of_plain (isVerbatim_brackets hverbatim) (Keeps.pure _)
      next => exact ensures_unexpected .value t

theorem continues_callIn (hsource : Bare source) : (g : Grammar) → (name : String) → (n : Nat) →
    Continues source .value (callIn g name n)
  | g, name, 0 => fun _ => ensures_exhausted .value
  | g, name, n + 1 => by
    intro L
    rw [callIn]
    refine (reaches_expect hsource .leftParen .function).bind fun opening => ?_
    have hclose (args : Value) : Reaches source (L * textual .value * bracket .leftParen *
        textual .value) .value (do
          closeParen opening.position .function
          return Value.call name args) (fun _ => L * textual .value) .value :=
      (reaches_closeParen hsource opening.position .function).bind fun _ =>
        .pure (parens_absorbed (by decide))
    refine Ensures.of_imp (Ensures.bind (ensures_peekKind_text hsource) fun kind => ?_) fun r hr =>
      hr.mono (le_mul_of_one_le one_le_textual)
    split
    · exact Ensures.bind (Continues.pure _).of_follows hclose
    · exact Ensures.bind (continues_valueListIn hsource _ n).of_follows hclose

theorem reaches_interpolationIn (hsource : Bare source) : (g : Grammar) → (n : Nat) →
    (L : Language Fragment) → (mode : LexicalMode) →
    Reaches source L mode (interpolationIn g n)
      (fun _ => L * textual .value * bracket .rightBrace) .value
  | g, 0, L, mode => ensures_exhausted .value
  | g, n + 1, L, mode => by
    rw [interpolationIn]
    refine reaches_setMode.bind fun _ => ?_
    refine (continues_binaryIn hsource _ 0 n).begin.bind fun v => ?_
    exact (reaches_expect hsource .rightBrace .interpolation).bind fun _ => .pure le_rfl

end

end Operands

/-! ## Selectors, preludes and statements -/

section Statements

variable {source : List Char} (hsource : Bare source) {L : Language Fragment} {mode : LexicalMode}
include hsource

theorem continues_valueList : Continues source .value valueList := fun L =>
  keeps_room.bind fun n => continues_valueListIn hsource {} n L

theorem continues_spaceList : Continues source .value spaceList := fun L =>
  keeps_room.bind fun n => continues_spaceListIn hsource {} [] n L

theorem reaches_condition : Reaches source (L * textual .value) mode condition
    (fun _ => L * textual .value) .value :=
  reaches_setMode.bind fun _ =>
    Reaches.bind keeps_room fun n => continues_binaryIn hsource _ 0 n L

theorem reaches_interpolation : Reaches source L mode interpolation
    (fun _ => L * textual .value * bracket .rightBrace) .value :=
  Reaches.bind keeps_room fun n => reaches_interpolationIn hsource {} n L mode

theorem reaches_selectorFrom (alternatives : List Alternative) (current : Alternative) (n : Nat) :
    Reaches source (L * textual .selector) .selector (selectorFrom alternatives current n)
      (fun _ => L * textual .selector * bracket .leftBrace) .selector := by
  induction n generalizing alternatives current with
  | zero => exact ensures_exhausted .selector
  | succ n ih =>
    rw [selectorFrom]
    refine (ensures_require hsource .selector).bind fun t => ?_
    dsimp only
    split
    next hkind =>
      rw [← hkind]
      exact (Reaches.pure le_rfl).of_imp fun r hr => hr.text
    next hkind => exact (ih _ _).of_imp fun r hr => hr.plain (by rw [hkind]; rfl)
    next hkind => exact (ih _ _).of_imp fun r hr => hr.plain (by rw [hkind]; rfl)
    next hkind =>
      refine Ensures.of_imp ?_ fun r hr => hkind ▸ hr.text
      refine (reaches_interpolation hsource).bind fun v => ?_
      exact reaches_setMode.bind fun _ => (ih _ _).mono hole_absorbed fun _ => le_rfl
    next => exact ensures_unexpected .selector t
    next => exact ensures_unexpected .selector t
    next hleft _ _ hhole hright hsemicolon =>
      refine (ih _ _).of_imp fun r hr => hr.plain (hr.brackets_eq_nil ?_)
      simpa using ⟨hleft, hright, hsemicolon, hhole⟩

theorem reaches_selector : Reaches source (L * textual .selector) .selector selector
    (fun _ => L * textual .selector * bracket .leftBrace) .selector := by
  refine Reaches.bind keeps_here fun start => Reaches.bind keeps_room fun n => ?_
  refine (reaches_selectorFrom hsource [] [] n).bind fun s => ?_
  split
  · exact ensures_fail _ _
  · exact .pure le_rfl

theorem reaches_preludeFrom (blockRequired : Bool) (text : String) (n : Nat) :
    Reaches source (L * textual .selector) .selector (preludeFrom blockRequired text n)
      (fun result => L * textual .selector * preludeEnd blockRequired result.2) .selector := by
  induction n generalizing text with
  | zero => exact ensures_exhausted .atRule
  | succ n ih =>
    have hend (hblock : ¬ blockRequired = true) : stop = preludeEnd blockRequired false := by
      rw [preludeEnd, if_neg Bool.false_ne_true, if_neg hblock]
    rw [preludeFrom]
    refine (ensures_next_reached hsource).bind fun t => ?_
    cases t with
    | none =>
      dsimp only
      split
      next => exact ensures_unexpectedEnd .atRule
      next hblock =>
        refine (Reaches.pure ?_).of_imp fun r hr => hr.2 rfl
        exact textual_mul_flat_le.trans (le_mul_of_one_le (hend hblock ▸ one_le_stop))
    | some t =>
      refine Ensures.of_imp ?_ fun r hr => hr.1 t rfl
      dsimp only
      split
      next hkind =>
        refine (Reaches.pure ?_).of_imp fun r hr => hr.text
        rw [hkind]
        exact le_rfl
      next hkind =>
        split
        next => exact ensures_unexpected .atRule t
        next hblock =>
          refine (Reaches.pure ?_).of_imp fun r hr => hr.text
          rw [hkind]
          exact mul_le_mul_right (hend hblock ▸ semicolon_le_stop) _
      next hkind =>
        split
        next => exact ensures_unexpected .atRule t
        next hblock =>
          intro r a r' hr h
          cases h
          refine hr.rewound.mono (textual_mul_flat_le.trans ?_)
          exact le_mul_of_one_le (hend hblock ▸ one_le_stop)
      next hkind =>
        refine Ensures.of_imp ?_ fun r hr => hkind ▸ hr.text
        refine (reaches_interpolation hsource).bind fun v => ?_
        exact reaches_setMode.bind fun _ => (ih _).mono hole_absorbed fun _ => le_rfl
      next hleft hsemicolon hright hhole =>
        refine (ih _).of_imp fun r hr => hr.plain (hr.brackets_eq_nil ?_)
        simpa using ⟨hleft, hright, hsemicolon, hhole⟩

theorem ensures_prelude (blockRequired : Bool) :
    Ensures (Reader.Reached source (L * textual .selector) mode) (prelude blockRequired)
      fun result => Reader.Reached source
        (L * textual .selector * preludeEnd blockRequired result.2)
        (if result.2 then .selector else .block) := by
  refine Ensures.bind reaches_setMode fun _ => Ensures.bind keeps_room fun n => ?_
  refine Ensures.bind (reaches_preludeFrom hsource blockRequired "" n) fun result => ?_
  obtain ⟨text, hasBlock⟩ := result
  cases hasBlock with
  | true =>
    intro r a r' hr h
    cases h
    exact hr
  | false =>
    refine Ensures.bind reaches_setMode fun _ r a r' hr h => ?_
    cases h
    exact hr

theorem reaches_endStatement (reading : Construct) :
    Reaches source L .value (endStatement reading) (fun _ => L * flat .value * stop) .block := by
  refine (ensures_peek_reached hsource).bind fun t => ?_
  have hend : Reaches source (L * flat .value) .value (setMode .block)
      (fun _ => L * flat .value * stop) .block :=
    reaches_setMode.mono le_rfl fun _ => le_mul_of_one_le one_le_stop
  cases t with
  | none => exact hend.of_imp fun r hr => hr.1
  | some t =>
    dsimp only
    split
    next hkind =>
      have hskip : Ensures (fun r => r.Reached source (L * flat .value) .value ∧
          r.ahead.map Token.kind = some .semicolon) skip
          fun _ => Reader.Reached source (L * flat .value * flat .value * bracket .semicolon) .value :=
        ensures_skip hsource
      refine Ensures.bind (hskip.of_imp fun r hr => ⟨hr.1, ?_⟩) fun _ => ?_
      · rw [hr.2.1, Option.map_some, hkind]
      · refine reaches_setMode.mono le_rfl fun _ => ?_
        exact mul_le_mul' (mul_le_of_le flat_mul_le le_rfl) semicolon_le_stop
    next =>
      split
      · exact hend.of_imp fun r hr => hr.1
      · exact (ensures_unexpected reading t).bind fun _ => hend

theorem continues_propertyName (name : String) (n : Nat) :
    Continues source .block (propertyName name n) := by
  induction n generalizing name with
  | zero => exact fun _ => ensures_exhausted .declaration
  | succ n ih =>
    intro L
    rw [propertyName]
    refine (reaches_require hsource .declaration).bind fun t => ?_
    split
    next hkind =>
      split
      · exact ensures_unexpected .declaration t
      · exact .of_plain (by rw [hkind]; rfl) (Keeps.pure name)
    next hkind => exact .of_plain (by rw [hkind]; rfl) (ih _ L)
    next hkind => exact .of_plain (by rw [hkind]; rfl) (ih _ L)
    next hkind => exact .of_plain (by rw [hkind]; rfl) (ih _ L)
    next hkind => exact .of_plain (by rw [hkind]; rfl) (ih _ L)
    next hkind => exact .of_plain (by rw [hkind]; rfl) (ih _ L)
    next hkind => exact .of_plain (by rw [hkind]; rfl) (ih _ L)
    next => exact ensures_unexpected .declaration t

theorem reaches_parametersFrom (found : List Parameter) (n : Nat) :
    Reaches source (L * textual .value) .value (parametersFrom found n)
      (fun _ => L * textual .value * bracket .rightParen) .value := by
  induction n generalizing found with
  | zero => exact ensures_exhausted .mixin
  | succ n ih =>
    rw [parametersFrom]
    refine (reaches_require hsource .mixin).bind fun t => ?_
    split
    next hkind =>
      rw [hkind]
      exact .pure le_rfl
    next hkind => exact .of_plain (by rw [hkind]; rfl) (ih found)
    next hkind =>
      refine .of_plain (by rw [hkind]; rfl) ((ensures_peekKind_text hsource).bind fun kind => ?_)
      split
      next hcolon =>
        subst hcolon
        refine Ensures.bind (ensures_skip_plain hsource rfl) fun _ => ?_
        exact Ensures.bind (continues_spaceList hsource L) fun v => ih _
      next => exact (ih _).of_imp fun r hr => hr.1
    next => exact ensures_unexpected .mixin t

theorem continues_parameters : Continues source .value parameters := by
  intro L
  refine (ensures_peekKind_text hsource).bind fun kind => ?_
  split
  next hkind =>
    subst hkind
    refine Ensures.bind (ensures_skip_text hsource) fun _ => Ensures.bind keeps_room fun n => ?_
    refine (reaches_parametersFrom hsource [] n).mono ?_ fun _ => parens_absorbed (by decide)
    exact le_mul_of_one_le one_le_textual
  next => exact (Continues.pure _).of_follows

theorem ensures_arguments :
    Ensures (Follows source L .value (some .leftParen)) inclusion.arguments
      fun _ => Reader.Reached source (L * textual .value) .value := by
  refine Ensures.bind (ensures_skip_text hsource) fun _ => ?_
  have hclose (args : Option Value) : Reaches source (L * textual .value * bracket .leftParen *
      textual .value) .value (do
        let _ ← expect .rightParen .inclusion
        return args) (fun _ => L * textual .value) .value :=
    (reaches_expect hsource .rightParen .inclusion).bind fun _ =>
      .pure (parens_absorbed (by decide))
  refine Ensures.of_imp (Ensures.bind (ensures_peekKind_text hsource) fun kind => ?_) fun r hr =>
    hr.mono (le_mul_of_one_le one_le_textual)
  split
  · exact Ensures.bind (Continues.pure _).of_follows hclose
  · refine Ensures.bind (Continues.of_follows ?_) hclose
    exact (continues_valueList hsource).bind fun _ => .pure _

end Statements

end Reading

end Stylesheet
