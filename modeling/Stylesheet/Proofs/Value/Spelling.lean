import Stylesheet.Proofs.Token.Stream
import Stylesheet.Proofs.Value.Steps
import Stylesheet.Value.Printer

/-!
# Values as rows of tokens

The values that are read back from their text, and the tokens that such a text is cut into. Reading
these tokens gives the value, whatever stands after them that can stand after such a value.

* `Printable`: the values; an item stands in a group, and a group in a list.
* `Value.spelled`: the tokens of a value.
* `Printable.readsBack`: the tokens are read as the value.
-/

namespace Stylesheet

open Lexeme

/-! ## The values -/

/-- A letter or an underscore, then characters of names. -/
def IsIdentifier (text : List Char) : Prop :=
  ∃ c cs, text = c :: cs ∧ isInitial c = true ∧ ∀ d ∈ cs, isNameChar d = true

def IsDigits (text : List Char) : Prop := text ≠ [] ∧ ∀ c ∈ text, Decimal.isDigit c = true

/-- Maybe a minus, then digits, and maybe a point with digits. -/
def IsNumeral (text : List Char) : Prop :=
  ∃ sign whole fraction, text = sign ++ (whole ++ fraction) ∧ (sign = [] ∨ sign = ['-']) ∧
    IsDigits whole ∧ (fraction = [] ∨ ∃ digits, fraction = '.' :: digits ∧ IsDigits digits)

/-- Nothing, a percent sign, or a letter and characters of names. -/
def IsUnitText (text : List Char) : Prop :=
  text = [] ∨ text = ['%'] ∨
    ∃ c cs, text = c :: cs ∧ isLetter c = true ∧ ∀ d ∈ cs, isNameChar d = true

/-- An identifier that does not start a url where a parenthesis follows. -/
def IsFunctionName (text : List Char) : Prop :=
  IsIdentifier text ∧ text.map Char.toLower ≠ ['u', 'r', 'l']

/-- Where a value stands. -/
inductive Rank where
  /-- Between spaces. -/
  | item
  /-- Between commas. -/
  | group
  /-- Between parentheses, or by itself. -/
  | list

/-- The values that are read back from their text. -/
inductive Printable : Rank → Value → Prop
  | literal {s : String} (h : IsIdentifier s.toList) (htrue : s ≠ "true") (hfalse : s ≠ "false") :
      Printable .item (.literal s)
  | boolean (truth : Bool) : Printable .item (.boolean truth)
  | reference {name : String} (hne : name.toList ≠ [])
      (h : ∀ c ∈ name.toList, isNameChar c = true) : Printable .item (.reference name)
  | quantity {q : Quantity} (hnumeral : IsNumeral (Quantity.numberText q.number).toList)
      (hread : (Numeral.read? (Quantity.numberText q.number)).map Numeral.toDouble = some q.number)
      (hunit : IsUnitText q.unit.toList) : Printable .item (.quantity q)
  | emptyCall {name : String} (hname : IsFunctionName name.toList) :
      Printable .item (.call name (.list [] .space))
  | call {name : String} {args : Value} (hname : IsFunctionName name.toList)
      (hargs : Printable .list args) : Printable .item (.call name args)
  | group {items : List Value} (hne : items ≠ []) (hitems : ∀ v ∈ items, Printable .item v) :
      Printable .group (.ofComponents items)
  | list {groups : List Value} (hne : groups ≠ []) (hgroups : ∀ v ∈ groups, Printable .group v) :
      Printable .list (.ofGroups groups)

/-! ## Their tokens -/

/-- The token between the items of a list, if there is one. -/
def Separator.spelled : Separator → List Spelling
  | .space => []
  | .comma => [⟨.comma, ",", false⟩]

namespace Value

mutual

/-- The tokens of a value. The first one has white space before it if `spaced` says so. -/
def spelled (spaced : Bool) : Value → List Spelling
  | .quantity q => ⟨.number, Quantity.numberText q.number, spaced⟩ ::
      if q.unit = "" then [] else [⟨.unit, q.unit, false⟩]
  | .literal s => [⟨.ident, s, spaced⟩]
  | .boolean truth => [⟨.ident, if truth then "true" else "false", spaced⟩]
  | .reference name => [⟨.reference, "$" ++ name, spaced⟩]
  | .call name args => ⟨.ident, name, spaced⟩ :: ⟨.leftParen, "(", false⟩ ::
      (spelled false args ++ [⟨.rightParen, ")", false⟩])
  | .list items separator => spelledAll separator spaced items
  | .binary _ _ _ | .joined _ | .undefined _ => []

def spelledAll (separator : Separator) (spaced : Bool) : List Value → List Spelling
  | [] => []
  | v :: vs => spelled spaced v ++ spelledRest separator vs

/-- What follows the first item of a list. -/
def spelledRest (separator : Separator) : List Value → List Spelling
  | [] => []
  | v :: vs => separator.spelled ++ (spelled true v ++ spelledRest separator vs)

end

theorem spelled_ofComponents (spaced : Bool) (items : List Value) :
    (ofComponents items).spelled spaced = spelledAll .space spaced items := by
  unfold ofComponents
  split
  · rw [spelledAll, spelledRest, List.append_nil]
  · rw [spelled]

theorem spelled_ofGroups (spaced : Bool) (groups : List Value) :
    (ofGroups groups).spelled spaced = spelledAll .comma spaced groups := by
  unfold ofGroups
  split
  · rw [spelledAll, spelledRest, List.append_nil]
  · rw [spelled]

end Value

/-- The tokens begin with one of the given kinds, if there are any. -/
def Begins (kinds : List TokenKind) (ps : List Spelling) : Prop := ∀ p ∈ ps.head?, p.kind ∈ kinds

/-- What a value starts with. -/
def valueStarts : List TokenKind := [.ident, .number, .reference]

/-- What may stand after a value. -/
def Rank.ends : Rank → List TokenKind
  | .item => [.ident, .number, .reference, .comma, .rightParen]
  | .group => [.comma, .rightParen]
  | .list => [.rightParen]

theorem Printable.begins {k : Rank} {v : Value} (h : Printable k v) (spaced : Bool) :
    ∃ p ps, v.spelled spaced = p :: ps ∧ p.kind ∈ valueStarts ∧ p.spaced = spaced := by
  induction h with
  | literal h htrue hfalse => exact ⟨_, _, by rw [Value.spelled], by simp [valueStarts], rfl⟩
  | boolean truth => exact ⟨_, _, by rw [Value.spelled], by simp [valueStarts], rfl⟩
  | reference hne h => exact ⟨_, _, by rw [Value.spelled], by simp [valueStarts], rfl⟩
  | quantity hnumeral hread hunit => exact ⟨_, _, by rw [Value.spelled], by simp [valueStarts], rfl⟩
  | emptyCall hname => exact ⟨_, _, by rw [Value.spelled], by simp [valueStarts], rfl⟩
  | call hname hargs ih => exact ⟨_, _, by rw [Value.spelled], by simp [valueStarts], rfl⟩
  | @group items hne hitems ih =>
    obtain ⟨v, vs, rfl⟩ := List.exists_cons_of_ne_nil hne
    obtain ⟨p, ps, hspelled, hp⟩ := ih v List.mem_cons_self
    exact ⟨p, ps ++ Value.spelledRest .space vs,
      by rw [Value.spelled_ofComponents, Value.spelledAll, hspelled, List.cons_append], hp⟩
  | @list groups hne hgroups ih =>
    obtain ⟨v, vs, rfl⟩ := List.exists_cons_of_ne_nil hne
    obtain ⟨p, ps, hspelled, hp⟩ := ih v List.mem_cons_self
    exact ⟨p, ps ++ Value.spelledRest .comma vs,
      by rw [Value.spelled_ofGroups, Value.spelledAll, hspelled, List.cons_append], hp⟩

/-! ## Reading the tokens -/

/-- What reads a value where it stands. -/
def Rank.reading (g : Grammar) (n : Nat) : Rank → Reading Value
  | .item => Reading.binaryIn g 0 n
  | .group => Reading.spaceListIn g [] n
  | .list => Reading.valueListIn g n

/-- The tokens of a value are read as the value, and what follows is left. -/
def ReadsBack (k : Rank) (v : Value) : Prop :=
  ∀ (g : Grammar) (spaced : Bool) (ps : List Spelling) (r : Reader), Begins k.ends ps →
    r.Holds (v.spelled spaced ++ ps) →
    ∃ n, Reading.Runs (k.reading g n) r fun a r' => a = v ∧ r'.Holds ps

namespace Reader.Holds

open Reading

variable {g : Grammar} {r : Reader} {spaced : Bool} {ps : List Spelling} {v : Value}

/-- No operator follows an item. -/
theorem runs_operatorsIn (h : r.Holds ps) (hps : Begins Rank.item.ends ps) (least : Nat)
    (v : Value) :
    Runs (operatorsIn g least v 1) r fun a r' => a = v ∧ r'.Holds ps := by
  rw [operatorsIn]
  refine runs_bind (h.runs_peekKind fun r' hr' => ?_)
  have hnone : (ps.head?.map Spelling.kind).bind g.operator? = none := by
    cases ps with
    | nil => rfl
    | cons p ps =>
      have hkind := hps p rfl
      simp only [Rank.ends, List.mem_cons, List.not_mem_nil, or_false] at hkind
      simp only [List.head?_cons, Option.map_some, Option.bind_some]
      rcases hkind with hkind | hkind | hkind | hkind | hkind <;> rw [hkind] <;>
        simp [Grammar.operator?]
  rw [hnone]
  exact runs_pure ⟨rfl, hr'⟩

/-- An item is an expression of one operand. -/
theorem readsBack_item (h : ∀ (g : Grammar) (spaced : Bool) (ps : List Spelling) (r : Reader),
      Begins Rank.item.ends ps → r.Holds (v.spelled spaced ++ ps) →
      ∃ n, Runs (primaryIn g n) r fun a r' => a = v ∧ r'.Holds ps) : ReadsBack .item v := by
  intro g spaced ps r hps hr
  obtain ⟨n, hn⟩ : ∃ n, Runs (binaryIn g 0 (n + 1)) r fun a r' => a = v ∧ r'.Holds ps := by
    simp only [binaryIn]
    refine exists_runs_bind (growing_primaryIn g)
      (fun left => growing_operatorsIn g 0 left) ?_
    obtain ⟨n, a, r₁, hrun, rfl, hr₁⟩ := h g spaced ps r hps hr
    exact ⟨n, a, r₁, hrun, 1, hr₁.runs_operatorsIn hps 0 a⟩
  exact ⟨n + 1, hn⟩

theorem runs_callFollows (h : r.Holds ps) {Q : Bool → Reader → Prop}
    (hQ : ∀ r' : Reader, r'.Holds ps →
      Q (ps.head?.any fun p => p.kind = .leftParen && !p.spaced) r') : Runs callFollows r Q := by
  refine runs_bind (h.runs_peek fun t r' ht hr' => runs_pure ?_)
  have hany : (t.any fun t => t.kind = .leftParen && !t.spaceBefore) =
      ps.head?.any fun p => p.kind = .leftParen && !p.spaced := by
    rw [← ht]
    cases t <;> rfl
  rw [hany]
  exact hQ r' hr'

theorem runs_primaryIn_ident {text : String} (h : r.Holds (⟨.ident, text, spaced⟩ :: ps))
    (hps : Begins Rank.item.ends ps) :
    Runs (primaryIn g 1) r fun a r' => a = .ofIdent text ∧ r'.Holds ps := by
  rw [primaryIn]
  refine runs_bind (h.runs_require .value fun t r₁ ht hr₁ => ?_)
  obtain ⟨hkind, htext, -⟩ := Spelling.mk.inj ht
  rw [hkind]
  refine runs_bind (hr₁.runs_callFollows fun r₂ hr₂ => ?_)
  have hfollows : (ps.head?.any fun p => p.kind = .leftParen && !p.spaced) = false := by
    cases ps with
    | nil => rfl
    | cons p ps =>
      have hkind := hps p rfl
      have hne : p.kind ≠ .leftParen := by
        intro heq
        rw [heq] at hkind
        exact absurd hkind (by decide)
      simp [hne]
  rw [hfollows]
  exact runs_pure ⟨congrArg Value.ofIdent htext, hr₂⟩

theorem runs_primaryIn_reference {name : String}
    (h : r.Holds (⟨.reference, "$" ++ name, spaced⟩ :: ps)) :
    Runs (primaryIn g 1) r fun a r' => a = .reference name ∧ r'.Holds ps := by
  rw [primaryIn]
  refine runs_bind (h.runs_require .value fun t r₁ ht hr₁ => ?_)
  obtain ⟨hkind, htext, -⟩ := Spelling.mk.inj ht
  rw [hkind]
  refine runs_pure ⟨congrArg Value.reference ?_, hr₁⟩
  rw [Token.name, hkind, htext]
  simp

/-- A number with its unit, if it has one. -/
theorem runs_primaryIn_quantity {text unit : String} {n : Numeral}
    (hread : Numeral.read? text = some n)
    (h : r.Holds (⟨.number, text, spaced⟩ ::
      ((if unit = "" then [] else [⟨.unit, unit, false⟩]) ++ ps)))
    (hps : Begins Rank.item.ends ps) :
    Runs (primaryIn g 1) r fun a r' => a = .quantity ⟨n.toDouble, unit⟩ ∧ r'.Holds ps := by
  rw [primaryIn]
  refine runs_bind (h.runs_require .value fun t r₁ ht hr₁ => ?_)
  obtain ⟨hkind, htext, -⟩ := Spelling.mk.inj ht
  simp only [hkind]
  rw [quantity, htext, hread]
  refine runs_bind (hr₁.runs_peek fun u r₂ hu hr₂ => ?_)
  by_cases hunit : unit = ""
  · subst hunit
    rw [if_pos rfl, List.nil_append] at hu hr₂
    cases u with
    | none => exact runs_pure ⟨rfl, hr₂⟩
    | some u =>
      have hends := hps u.spelling hu.symm
      have hne : u.kind ≠ .unit := by
        intro heq
        have hkind : u.spelling.kind = .unit := heq
        rw [hkind] at hends
        exact absurd hends (by decide)
      dsimp only
      rw [if_neg hne]
      exact runs_pure ⟨rfl, hr₂⟩
  · rw [if_neg hunit] at hu hr₂
    cases u with
    | none => cases hu
    | some u =>
      obtain ⟨hkind, htext, -⟩ := Spelling.mk.inj (Option.some.inj hu)
      dsimp only
      rw [if_pos hkind]
      refine runs_bind (hr₂.runs_skip fun r₃ hr₃ => runs_pure ⟨?_, hr₃⟩)
      rw [htext]

theorem runs_closeParen {text : String} (h : r.Holds (⟨.rightParen, text, spaced⟩ :: ps))
    (opening : Position) (reading : Construct) {Q : Unit → Reader → Prop}
    (hQ : ∀ r' : Reader, r'.Holds ps → Q () r') : Runs (closeParen opening reading) r Q := by
  refine runs_bind (h.runs_next fun t r' ht hr' => ?_)
  cases t with
  | none => cases ht
  | some t =>
    obtain ⟨hkind, -, -⟩ := Spelling.mk.inj (Option.some.inj ht)
    dsimp only
    rw [if_pos hkind]
    exact runs_pure (hQ r' hr')

/-- A name with a parenthesis right after it is read on by `callIn`. -/
theorem exists_runs_primaryIn_call {name text : String}
    (h : r.Holds (⟨.ident, name, spaced⟩ :: ⟨.leftParen, text, false⟩ :: ps))
    {Q : Value → Reader → Prop}
    (hcall : ∀ r' : Reader, r'.Holds (⟨.leftParen, text, false⟩ :: ps) →
      ∃ n, Runs (callIn g name n) r' Q) : ∃ n, Runs (primaryIn g n) r Q := by
  obtain ⟨n, hn⟩ : ∃ n, Runs (primaryIn g (n + 1)) r Q := by
    simp only [primaryIn]
    refine exists_runs_after (h.runs_require .value fun t r₁ ht hr₁ => ?_)
    obtain ⟨hkind, htext, -⟩ := Spelling.mk.inj ht
    simp only [hkind, htext]
    refine exists_runs_after (hr₁.runs_callFollows fun r₂ hr₂ => ?_)
    exact hcall r₂ hr₂
  exact ⟨n + 1, hn⟩

theorem runs_callIn_empty {name text closing : String}
    (h : r.Holds (⟨.leftParen, text, false⟩ :: ⟨.rightParen, closing, false⟩ :: ps)) :
    Runs (callIn g name 1) r fun a r' => a = .call name (.list [] .space) ∧ r'.Holds ps := by
  rw [callIn]
  refine runs_bind (h.runs_expect rfl .function fun t r₁ hr₁ => ?_)
  refine runs_bind (hr₁.runs_peekKind fun r₂ hr₂ => ?_)
  refine runs_bind (runs_pure (runs_bind ?_))
  exact hr₂.runs_closeParen t.position .function fun r₃ hr₃ => runs_pure ⟨rfl, hr₃⟩

theorem exists_runs_callIn {name text closing : String} {args : Value}
    (hargs : ReadsBack .list args)
    (hstart : ∃ p qs, args.spelled false = p :: qs ∧ p.kind ∈ valueStarts)
    (h : r.Holds (⟨.leftParen, text, false⟩ ::
      (args.spelled false ++ ⟨.rightParen, closing, false⟩ :: ps))) :
    ∃ n, Runs (callIn g name n) r fun a r' => a = .call name args ∧ r'.Holds ps := by
  obtain ⟨n, hn⟩ : ∃ n, Runs (callIn g name (n + 1)) r
      fun a r' => a = .call name args ∧ r'.Holds ps := by
    simp only [callIn]
    refine exists_runs_after (h.runs_expect rfl .function fun t r₁ hr₁ => ?_)
    refine exists_runs_after (hr₁.runs_peekKind fun r₂ hr₂ => ?_)
    obtain ⟨p, qs, hspelled, hp⟩ := hstart
    have hne : p.kind ≠ .rightParen := by
      intro heq
      rw [heq] at hp
      exact absurd hp (by decide)
    have hkind : ((args.spelled false ++ ⟨.rightParen, closing, false⟩ :: ps).head?.map
        Spelling.kind) ≠ some .rightParen := by
      rw [hspelled]
      simpa using hne
    simp only [hkind, if_false]
    have hclose : Begins Rank.list.ends (⟨.rightParen, closing, false⟩ :: ps) := by
      rintro q ⟨⟩
      exact List.mem_singleton_self _
    refine exists_runs_bind (growing_valueListIn _) (fun _ => growing_const _) ?_
    obtain ⟨n, a, r₃, hrun, rfl, hr₃⟩ := hargs (g.ofArguments name) false _ r₂ hclose hr₂
    refine ⟨n, a, r₃, hrun, 0, runs_bind ?_⟩
    exact hr₃.runs_closeParen t.position .function fun r₄ hr₄ => runs_pure ⟨rfl, hr₄⟩
  exact ⟨n + 1, hn⟩

/-! ### Groups -/

theorem runs_spaceListIn_end (h : r.Holds ps) (hps : Begins Rank.group.ends ps)
    (components : List Value) : Runs (spaceListIn g components 1) r
      fun a r' => a = .ofComponents components.reverse ∧ r'.Holds ps := by
  rw [spaceListIn]
  refine runs_bind (h.runs_peek fun t r' ht hr' => ?_)
  cases t with
  | none => exact runs_pure ⟨rfl, hr'⟩
  | some t =>
    have hkind : t.kind ∈ Rank.group.ends := hps t.spelling ht.symm
    simp only [Rank.ends, List.mem_cons, List.not_mem_nil, or_false] at hkind
    have hends : t.kind.endsList = true := by
      rcases hkind with hkind | hkind <;> rw [hkind] <;> rfl
    dsimp only
    rw [if_pos hends]
    exact runs_pure ⟨rfl, hr'⟩

/-- One more item of a space list, which stands after a space unless it is the first one. -/
theorem exists_runs_spaceListIn {components : List Value} (hv : Printable .item v)
    (hread : ReadsBack .item v) (hspaced : components ≠ [] → spaced = true)
    (hps : Begins Rank.item.ends ps) (h : r.Holds (v.spelled spaced ++ ps))
    {Q : Value → Reader → Prop}
    (hrest : ∀ r' : Reader, r'.Holds ps → ∃ n, Runs (spaceListIn g (v :: components) n) r' Q) :
    ∃ n, Runs (spaceListIn g components n) r Q := by
  obtain ⟨p, qs, hspelled, hp, hpspaced⟩ := hv.begins spaced
  obtain ⟨n, hn⟩ : ∃ n, Runs (spaceListIn g components (n + 1)) r Q := by
    simp only [spaceListIn]
    refine exists_runs_after (h.runs_peek fun t r₁ ht hr₁ => ?_)
    cases t with
    | none => simp [hspelled] at ht
    | some t =>
      have hspelling : t.spelling = p := by simpa [hspelled] using ht
      have hends : t.kind.endsList = false := by
        have hkind : t.kind ∈ valueStarts := by
          rw [← hspelling] at hp
          exact hp
        simp only [valueStarts, List.mem_cons, List.not_mem_nil, or_false] at hkind
        rcases hkind with hkind | hkind | hkind <;> rw [hkind] <;> rfl
      have hspace : t.spaceBefore = spaced := by
        rw [← hpspaced, ← hspelling]
        rfl
      obtain ⟨n, a, r₂, hrun, rfl, hr₂⟩ := hread g spaced ps r₁ hps hr₁
      simp only [hends, Bool.false_eq_true, if_false]
      refine exists_runs_bind (growing_binaryIn g 0) ?_
        ⟨n, a, r₂, hrun, ?_⟩
      · intro term m k hle
        cases components with
        | nil => exact growing_spaceListIn g _ hle
        | cons last before =>
          dsimp only
          split
          · exact growing_spaceListIn g _ hle
          · exact growing_spaceListIn g _ hle
      · cases components with
        | nil => exact hrest r₂ hr₂
        | cons last before =>
          simp only [hspace, hspaced (List.cons_ne_nil last before), if_true]
          exact hrest r₂ hr₂
  exact ⟨n + 1, hn⟩

theorem begins_spelledRest_space {items : List Value} (hitems : ∀ v ∈ items, Printable .item v)
    (hps : Begins Rank.group.ends ps) :
    Begins Rank.item.ends (Value.spelledRest .space items ++ ps) := by
  cases items with
  | nil =>
    intro p hp
    have hkind := hps p hp
    simp only [Rank.ends, List.mem_cons, List.not_mem_nil, or_false] at hkind ⊢
    rcases hkind with hkind | hkind <;> simp [hkind]
  | cons v items =>
    obtain ⟨p, qs, hspelled, hkind, -⟩ := (hitems v List.mem_cons_self).begins true
    intro q hq
    obtain rfl : p = q := by
      simpa [Value.spelledRest, Separator.spelled, hspelled] using hq
    simp only [valueStarts, Rank.ends, List.mem_cons, List.not_mem_nil, or_false] at hkind ⊢
    rcases hkind with hkind | hkind | hkind <;> simp [hkind]

theorem exists_runs_spaceListIn_rest {items : List Value} (components : List Value)
    (hitems : ∀ v ∈ items, Printable .item v) (hread : ∀ v ∈ items, ReadsBack .item v)
    (hps : Begins Rank.group.ends ps) (h : r.Holds (Value.spelledRest .space items ++ ps)) :
    ∃ n, Runs (spaceListIn g components n) r
      fun a r' => a = .ofComponents (components.reverse ++ items) ∧ r'.Holds ps := by
  induction items generalizing r components with
  | nil =>
    rw [List.append_nil]
    exact ⟨1, h.runs_spaceListIn_end hps components⟩
  | cons v items ih =>
    obtain ⟨hv, hitems⟩ := List.forall_mem_cons.1 hitems
    obtain ⟨hvread, hread⟩ := List.forall_mem_cons.1 hread
    have hsplit : Value.spelledRest .space (v :: items) ++ ps =
        v.spelled true ++ (Value.spelledRest .space items ++ ps) := by
      rw [Value.spelledRest, Separator.spelled, List.nil_append, List.append_assoc]
    rw [hsplit] at h
    refine exists_runs_spaceListIn hv hvread (fun _ => rfl) (begins_spelledRest_space hitems hps) h
      fun r' hr' => ?_
    have hstep := ih (v :: components) hitems hread hr'
    rw [List.reverse_cons, List.append_assoc] at hstep
    exact hstep

theorem readsBack_group {items : List Value} (hne : items ≠ [])
    (hitems : ∀ v ∈ items, Printable .item v) (hread : ∀ v ∈ items, ReadsBack .item v) :
    ReadsBack .group (.ofComponents items) := by
  intro g spaced ps r hps h
  obtain ⟨v, items, rfl⟩ := List.exists_cons_of_ne_nil hne
  obtain ⟨hv, hitems⟩ := List.forall_mem_cons.1 hitems
  obtain ⟨hvread, hread⟩ := List.forall_mem_cons.1 hread
  rw [Value.spelled_ofComponents, Value.spelledAll, List.append_assoc] at h
  refine exists_runs_spaceListIn hv hvread (fun hnil => absurd rfl hnil)
    (begins_spelledRest_space hitems hps) h fun r' hr' => ?_
  exact exists_runs_spaceListIn_rest [v] hitems hread hps hr'

/-! ### Lists -/

theorem begins_spelledRest_comma {groups : List Value} (hps : Begins Rank.list.ends ps) :
    Begins Rank.group.ends (Value.spelledRest .comma groups ++ ps) := by
  cases groups with
  | nil =>
    intro p hp
    exact List.mem_cons_of_mem _ (hps p hp)
  | cons v groups =>
    rintro p ⟨⟩
    exact List.mem_cons_self

theorem exists_runs_groupsIn {groups : List Value} (before : List Value)
    (hread : ∀ v ∈ groups, ReadsBack .group v) (hps : Begins Rank.list.ends ps)
    (h : r.Holds (Value.spelledRest .comma groups ++ ps)) :
    ∃ n, Runs (groupsIn g before n) r
      fun a r' => a = .ofGroups (before.reverse ++ groups) ∧ r'.Holds ps := by
  induction groups generalizing r before with
  | nil =>
    refine ⟨1, ?_⟩
    rw [groupsIn]
    refine runs_bind (h.runs_peekKind fun r' hr' => ?_)
    have hkind : (([] ++ ps).head?.map Spelling.kind) ≠ some .comma := by
      intro heq
      obtain ⟨p, hp, hcomma⟩ := Option.map_eq_some_iff.1 heq
      have hparen := hps p hp
      rw [hcomma] at hparen
      exact absurd hparen (by decide)
    rw [Value.spelledRest, if_neg hkind, List.append_nil]
    exact runs_pure ⟨rfl, hr'⟩
  | cons v groups ih =>
    obtain ⟨hv, hgroups⟩ := List.forall_mem_cons.1 hread
    have hsplit : Value.spelledRest .comma (v :: groups) ++ ps =
        ⟨.comma, ",", false⟩ :: (v.spelled true ++ (Value.spelledRest .comma groups ++ ps)) := by
      rw [Value.spelledRest, Separator.spelled, List.singleton_append, List.cons_append,
        List.append_assoc]
    rw [hsplit] at h
    obtain ⟨n, hn⟩ : ∃ n, Runs (groupsIn g before (n + 1)) r
        fun a r' => a = .ofGroups (before.reverse ++ v :: groups) ∧ r'.Holds ps := by
      simp only [groupsIn]
      refine exists_runs_after (h.runs_peekKind fun r₁ hr₁ => ?_)
      refine exists_runs_after (hr₁.runs_skip fun r₂ hr₂ => ?_)
      refine exists_runs_bind (growing_spaceListIn g [])
        (fun group => growing_groupsIn g (group :: before)) ?_
      obtain ⟨n, a, r₃, hrun, rfl, hr₃⟩ := hv g true _ r₂ (begins_spelledRest_comma hps) hr₂
      have hstep := ih (a :: before) hgroups hr₃
      rw [List.reverse_cons, List.append_assoc] at hstep
      exact ⟨n, a, r₃, hrun, hstep⟩
    exact ⟨n + 1, hn⟩

theorem readsBack_list {groups : List Value} (hne : groups ≠ [])
    (hread : ∀ v ∈ groups, ReadsBack .group v) : ReadsBack .list (.ofGroups groups) := by
  intro g spaced ps r hps h
  obtain ⟨v, groups, rfl⟩ := List.exists_cons_of_ne_nil hne
  obtain ⟨hv, hgroups⟩ := List.forall_mem_cons.1 hread
  rw [Value.spelled_ofGroups, Value.spelledAll, List.append_assoc] at h
  obtain ⟨n, hn⟩ : ∃ n, Runs (valueListIn g (n + 1)) r
      fun a r' => a = .ofGroups (v :: groups) ∧ r'.Holds ps := by
    simp only [valueListIn]
    refine exists_runs_bind (growing_spaceListIn g []) (fun first => growing_groupsIn g [first]) ?_
    obtain ⟨n, a, r₁, hrun, rfl, hr₁⟩ := hv g spaced _ r (begins_spelledRest_comma hps) h
    exact ⟨n, a, r₁, hrun, exists_runs_groupsIn [a] hgroups hps hr₁⟩
  exact ⟨n + 1, hn⟩

end Reader.Holds

open Reader.Holds in
/-- The tokens of a value that can be printed are read as the value. -/
theorem Printable.readsBack {k : Rank} {v : Value} (h : Printable k v) : ReadsBack k v := by
  induction h with
  | @literal s h htrue hfalse =>
    refine readsBack_item fun g spaced ps r hps h => ⟨1, ?_⟩
    have hident : Value.ofIdent s = .literal s := by
      rw [Value.ofIdent, if_neg htrue, if_neg hfalse]
    rw [Value.spelled] at h
    rw [← hident]
    exact h.runs_primaryIn_ident hps
  | boolean truth =>
    refine readsBack_item fun g spaced ps r hps h => ⟨1, ?_⟩
    have hident : Value.ofIdent (if truth then "true" else "false") = .boolean truth := by
      cases truth <;> rfl
    rw [Value.spelled] at h
    rw [← hident]
    exact h.runs_primaryIn_ident hps
  | reference hne h =>
    refine readsBack_item fun g spaced ps r hps h => ⟨1, ?_⟩
    rw [Value.spelled] at h
    exact h.runs_primaryIn_reference
  | quantity hnumeral hread hunit =>
    refine readsBack_item fun g spaced ps r hps h => ⟨1, ?_⟩
    rw [Value.spelled] at h
    obtain ⟨n, hn, hdouble⟩ := Option.map_eq_some_iff.1 hread
    have hquantity := h.runs_primaryIn_quantity (g := g) hn hps
    rw [hdouble] at hquantity
    exact hquantity
  | emptyCall hname =>
    refine readsBack_item fun g spaced ps r hps h => ?_
    rw [Value.spelled, Value.spelled, Value.spelledAll] at h
    exact h.exists_runs_primaryIn_call fun r' hr' => ⟨1, hr'.runs_callIn_empty⟩
  | call hname hargs ih =>
    refine readsBack_item fun g spaced ps r hps h => ?_
    rw [Value.spelled, List.cons_append, List.cons_append, List.append_assoc] at h
    obtain ⟨p, qs, hspelled, hp, -⟩ := hargs.begins false
    refine h.exists_runs_primaryIn_call fun r' hr' => ?_
    exact exists_runs_callIn ih ⟨p, qs, hspelled, hp⟩ hr'
  | group hne hitems ih => exact readsBack_group hne hitems ih
  | list hne hgroups ih => exact readsBack_list hne ih

end Stylesheet
