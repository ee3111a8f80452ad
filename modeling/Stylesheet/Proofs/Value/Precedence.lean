import Stylesheet.Proofs.Sheet.Invariants
import Stylesheet.Proofs.Token.Stream
import Stylesheet.Proofs.Value.Steps

/-!
# Operators and operands

An expression is read as operands with operators between them. The operators bind by their
precedence and to the left, so that there is one tree for each row of operands and operators.

* `OperatorTree`: an expression with its operands as leaves; `OperatorTree.IsOrdered`: the operators
  bind as they should.
* `OperatorTree.eq_of_isOrdered`: a row has no second such tree.
* `Operations`: the operators and operands that follow each other from a reader on.
* `binaryIn_reads_tree`: the tree that is read.
-/

namespace Stylesheet

/-- An expression. What is written in parentheses is an operand. -/
inductive OperatorTree where
  | operand (v : Value)
  | node (left : OperatorTree) (op : Operator) (right : OperatorTree)

namespace OperatorTree

def value : OperatorTree → Value
  | operand v => v
  | node left op right => .binary left.value op right.value

/-- The first operand, from left to right. -/
def first : OperatorTree → Value
  | operand v => v
  | node left _ _ => left.first

/-- The operators, each with the operand after it, from left to right. -/
def rest : OperatorTree → List (Operator × Value)
  | operand _ => []
  | node left op right => left.rest ++ (op, right.first) :: right.rest

/-- The operators on the left bind at least as tight as the one between, and those on the right
tighter. -/
def IsOrdered : OperatorTree → Prop
  | operand _ => True
  | node left op right =>
    (∀ x ∈ left.rest, op.precedence ≤ x.1.precedence) ∧
      (∀ x ∈ right.rest, op.precedence < x.1.precedence) ∧ left.IsOrdered ∧ right.IsOrdered

/-- If the row on the left of one operator reached beyond another one, each of the two would bind
tighter than the other. -/
theorem eq_nil_of_binds {op op' : Operator} {v v' : Value}
    {left right left' right' more : List (Operator × Value)}
    (hleft : ∀ x ∈ left', op'.precedence ≤ x.1.precedence)
    (hright : ∀ x ∈ right, op.precedence < x.1.precedence) (hmore : left' = left ++ more)
    (hrest : (op, v) :: right = more ++ (op', v') :: right') : more = [] := by
  cases more with
  | nil => rfl
  | cons x more =>
    obtain ⟨rfl, rfl⟩ := List.cons.inj hrest
    have hle := hleft (op, v) (by rw [hmore]; simp)
    have hlt := hright (op', v') (by simp)
    dsimp only at hle hlt
    omega

theorem eq_of_isOrdered {t u : OperatorTree} (ht : t.IsOrdered) (hu : u.IsOrdered)
    (hfirst : t.first = u.first) (hrest : t.rest = u.rest) : t = u := by
  induction t generalizing u with
  | operand v =>
    cases u with
    | operand w => exact congrArg operand hfirst
    | node left op right => simp [rest] at hrest
  | node left op right ihleft ihright =>
    cases u with
    | operand w => simp [rest] at hrest
    | node left' op' right' =>
      obtain ⟨hleft, hright, hleftOrdered, hrightOrdered⟩ := ht
      obtain ⟨hleft', hright', hleftOrdered', hrightOrdered'⟩ := hu
      have hsides : left.rest = left'.rest ∧ (op, right.first) :: right.rest =
          (op', right'.first) :: right'.rest := by
        rcases List.append_eq_append_iff.1 hrest with ⟨more, hmore, hcons⟩ | ⟨more, hmore, hcons⟩
        · obtain rfl := eq_nil_of_binds hleft' hright hmore hcons
          exact ⟨by simpa using hmore.symm, hcons⟩
        · obtain rfl := eq_nil_of_binds hleft hright' hmore hcons
          exact ⟨by simpa using hmore, hcons.symm⟩
      obtain ⟨hleftRest, hcons⟩ := hsides
      obtain ⟨hhead, hrightRest⟩ := List.cons.inj hcons
      obtain ⟨rfl, hrightFirst⟩ := Prod.mk.inj hhead
      rw [ihleft hleftOrdered hleftOrdered' hfirst hleftRest,
        ihright hrightOrdered hrightOrdered' hrightFirst hrightRest]

end OperatorTree

namespace Reading

/-! ## Operators and operands -/

/-- The operators before a reader, each with the operand after it, and the reader before what is no
operator. -/
inductive Operations (g : Grammar) : Reader → List (Operator × Value) → Reader → Prop
  | stop {r r' : Reader} {kind : Option TokenKind} (hpeek : peekKind r = .ok (kind, r'))
      (hstop : kind.bind g.operator? = none) : Operations g r [] r'
  | step {r r₁ r₂ r₃ r' : Reader} {kind : Option TokenKind} {op : Operator} {v : Value} {n : Nat}
      {rest : List (Operator × Value)} (hpeek : peekKind r = .ok (kind, r₁))
      (hop : kind.bind g.operator? = some op) (hskip : skip r₁ = .ok ((), r₂))
      (hoperand : primaryIn g n r₂ = .ok (v, r₃)) (hrest : Operations g r₃ rest r') :
      Operations g r ((op, v) :: rest) r'

section Bind

variable {α β : Type} {p : Reading α} {f : α → Reading β} {r r' : Reader}

theorem bind_eq_of_ok {a : α} (h : p r = .ok (a, r')) : (p >>= f) r = f a r' := by
  show (p r >>= fun x => f x.1 x.2) = _
  rw [h]
  rfl

theorem peekKind_peekKind {kind : Option TokenKind} (h : peekKind r = .ok (kind, r')) :
    peekKind r' = .ok (kind, r') := by
  obtain ⟨t, r₁, hpeek, h⟩ := ok_of_bind h
  cases h
  exact bind_eq_of_ok (peek_peek hpeek)

end Bind

variable {g : Grammar} {r r' : Reader} {rest : List (Operator × Value)}

/-- The row, read with a number of steps. -/
def operationsIn (g : Grammar) : Nat → Reading (List (Operator × Value))
  | 0 => exhausted .value
  | n + 1 => do
    match (← peekKind).bind g.operator? with
    | none => return []
    | some op =>
      skip
      let v ← primaryIn g n
      let rest ← operationsIn g n
      return (op, v) :: rest

theorem operations_of_operationsIn {n : Nat} (h : operationsIn g n r = .ok (rest, r')) :
    Operations g r rest r' := by
  induction n generalizing r rest with
  | zero => cases h
  | succ n ih =>
    rw [operationsIn] at h
    obtain ⟨kind, r₁, hpeek, h⟩ := ok_of_bind h
    cases hop : kind.bind g.operator? with
    | none =>
      rw [hop] at h
      cases h
      exact .stop hpeek hop
    | some op =>
      rw [hop] at h
      obtain ⟨_, r₂, hskip, h⟩ := ok_of_bind h
      obtain ⟨v, r₃, hoperand, h⟩ := ok_of_bind h
      obtain ⟨rest, r₄, hrest, h⟩ := ok_of_bind h
      cases h
      exact .step hpeek hop hskip hoperand (ih hrest)

/-! ## Climbing -/

/-- How reading goes on after `left` when it may take the operators that bind at least as tight as
`least`: the tree it comes to, the operations it leaves, and the reader before them. -/
structure Climbs (g : Grammar) (least : Nat) (left : OperatorTree) (r : Reader)
    (rest : List (Operator × Value)) (t : OperatorTree) (later : List (Operator × Value))
    (r' : Reader) : Prop where
  first : t.first = left.first
  taken : ∃ taken, rest = taken ++ later ∧ t.rest = left.rest ++ taken ∧
    ∀ x ∈ taken, least ≤ x.1.precedence
  ordered : t.IsOrdered
  looser : ∀ x ∈ later.head?, x.1.precedence < least ∧ ∀ y ∈ t.rest, x.1.precedence ≤ y.1.precedence
  reads : ∃ n, operatorsIn g least left.value n r = .ok (t.value, r')

/-- Nothing binds tight enough. -/
theorem Climbs.none {left : OperatorTree} {least : Nat} {kind : Option TokenKind}
    (hleft : left.IsOrdered) (hpeek : peekKind r = .ok (kind, r'))
    (hnone : ∀ op, kind.bind g.operator? = some op → op.precedence < least)
    (hnext : ∀ x ∈ rest.head?, x.1.precedence < least ∧
      ∀ y ∈ left.rest, x.1.precedence ≤ y.1.precedence) :
    Climbs g least left r rest left rest r' where
  first := rfl
  taken := ⟨[], rfl, (List.append_nil _).symm, by simp⟩
  ordered := hleft
  looser := hnext
  reads := by
    refine ⟨1, ?_⟩
    rw [operatorsIn, bind_eq_of_ok hpeek]
    cases hop : kind.bind g.operator? with
    | none => rfl
    | some op =>
      dsimp only
      rw [if_pos (hnone op hop)]
      rfl

/-- One operator is taken: its right operand takes what binds tighter, and the tree of both goes on
with the rest. -/
theorem Climbs.step {least n : Nat} {left right t : OperatorTree} {op : Operator} {v : Value}
    {kind : Option TokenKind} {later after : List (Operator × Value)} {r₁ r₂ r₃ r₄ : Reader}
    (hle : least ≤ op.precedence) (hpeek : peekKind r = .ok (kind, r₁))
    (hop : kind.bind g.operator? = some op) (hskip : skip r₁ = .ok ((), r₂))
    (hoperand : primaryIn g n r₂ = .ok (v, r₃))
    (hright : Climbs g (op.precedence + 1) (.operand v) r₃ rest right later r₄)
    (ht : Climbs g least (.node left op right) r₄ later t after r') :
    Climbs g least left r ((op, v) :: rest) t after r' where
  first := ht.first
  taken := by
    obtain ⟨inner, hrest, hinner, htight⟩ := hright.taken
    obtain ⟨outer, hlater, houter, hloose⟩ := ht.taken
    refine ⟨(op, v) :: inner ++ outer, by simp [hrest, hlater], ?_, ?_⟩
    · have hnode : (OperatorTree.node left op right).rest = left.rest ++ (op, v) :: inner := by
        rw [OperatorTree.rest, hright.first, hinner]
        rfl
      rw [houter, hnode, List.append_assoc]
    · intro x hx
      obtain (rfl | hx) | hx := (List.mem_append.1 hx).imp_left List.mem_cons.1
      · exact hle
      · have := htight x hx
        omega
      · exact hloose x hx
  ordered := ht.ordered
  looser := ht.looser
  reads := by
    obtain ⟨i, hi⟩ := hright.reads
    obtain ⟨j, hj⟩ := ht.reads
    -- One count that is enough for the operand, for what goes on after it, and for the rest.
    refine ⟨n + i + j + 2, ?_⟩
    have hprimary := (growing_primaryIn g (show n ≤ n + i + j by omega)).ok_of_ok hoperand
    have hinner := (growing_operatorsIn g _ _ (show i ≤ n + i + j by omega)).ok_of_ok hi
    have houter := (growing_operatorsIn g _ _ (show j ≤ n + i + j + 1 by omega)).ok_of_ok hj
    have hbinary : binaryIn g (op.precedence + 1) (n + i + j + 1) r₂ = .ok (right.value, r₄) := by
      rw [binaryIn, bind_eq_of_ok hprimary]
      exact hinner
    rw [operatorsIn, bind_eq_of_ok hpeek, hop]
    dsimp only
    rw [if_neg (Nat.not_lt.2 hle), bind_eq_of_ok hskip, bind_eq_of_ok hbinary]
    exact houter

/-- The tree of an operator is ordered as soon as its operands are. -/
theorem Climbs.isOrdered_node {left right : OperatorTree} {op : Operator} {v : Value}
    {later : List (Operator × Value)} (hordered : left.IsOrdered)
    (hleft : ∀ y ∈ left.rest, op.precedence ≤ y.1.precedence)
    (hright : Climbs g (op.precedence + 1) (.operand v) r rest right later r') :
    (OperatorTree.node left op right).IsOrdered := by
  obtain ⟨inner, -, hinner, htight⟩ := hright.taken
  refine ⟨hleft, fun x hx => ?_, hordered, hright.ordered⟩
  exact htight x (by simpa [hinner, OperatorTree.rest] using hx)

/-- What the right operand leaves binds no tighter than anything in the tree of the operator. -/
theorem Climbs.le_node {left right : OperatorTree} {op : Operator} {v : Value}
    {later : List (Operator × Value)}
    (hleft : ∀ y ∈ left.rest, op.precedence ≤ y.1.precedence)
    (hright : Climbs g (op.precedence + 1) (.operand v) r rest right later r') :
    ∀ x ∈ later.head?, ∀ y ∈ (OperatorTree.node left op right).rest,
      x.1.precedence ≤ y.1.precedence := by
  intro x hx y hy
  obtain ⟨hlt, hle⟩ := hright.looser x hx
  obtain hy | rfl | hy := (List.mem_append.1 hy).imp_right List.mem_cons.1
  · have := hleft y hy
    omega
  · exact Nat.lt_succ_iff.1 hlt
  · exact hle y hy

/-- Whatever the least precedence, reading takes operators from the row up to the first that binds
too loosely, and leaves the others to the reading around it. -/
theorem exists_climbs (least : Nat) (left : OperatorTree) (h : Operations g r rest r')
    (hordered : left.IsOrdered)
    (hnext : ∀ x ∈ rest.head?, ∀ y ∈ left.rest, x.1.precedence ≤ y.1.precedence) :
    ∃ t later r₁, Climbs g least left r rest t later r₁ ∧ Operations g r₁ later r' ∧
      ∃ kind, peekKind r₁ = .ok (kind, r₁) := by
  -- The inner reading and the outer one both go on with a shorter row.
  induction hlength : rest.length using Nat.strong_induction_on generalizing least left r rest with
  | _ k ih =>
    cases h with
    | stop hpeek hstop =>
      refine ⟨left, [], r', .none hordered hpeek ?_ (by simp), ?_, _, peekKind_peekKind hpeek⟩
      · intro op hop
        cases hstop.symm.trans hop
      · exact .stop (peekKind_peekKind hpeek) hstop
    | @step _ r₁ r₂ r₃ _ kind op v n rest hpeek hop hskip hoperand hrest =>
      have hleft := hnext (op, v) rfl
      by_cases hlt : op.precedence < least
      · refine ⟨left, (op, v) :: rest, r₁, .none hordered hpeek ?_ ?_, ?_, _,
          peekKind_peekKind hpeek⟩
        · intro op' hop'
          cases hop.symm.trans hop'
          exact hlt
        · intro x hx
          cases hx
          exact ⟨hlt, hleft⟩
        · exact .step (peekKind_peekKind hpeek) hop hskip hoperand hrest
      · obtain ⟨right, later, r₄, hright, hlater, -⟩ := ih rest.length (by simp [← hlength])
          (op.precedence + 1) (.operand v) hrest trivial (by simp [OperatorTree.rest]) rfl
        obtain ⟨inner, hinner, -, -⟩ := hright.taken
        have hfewer : later.length < k := by
          rw [← hlength, hinner, List.length_cons, List.length_append]
          omega
        obtain ⟨t, after, r₅, ht, hafter, hpeeked⟩ := ih later.length hfewer least _ hlater
          (hright.isOrdered_node hordered hleft) (hright.le_node hleft) rfl
        exact ⟨t, after, r₅, .step (Nat.le_of_not_lt hlt) hpeek hop hskip hoperand hright ht,
          hafter, hpeeked⟩

/-- After an operand and a row of operators and operands, an expression is the one tree of them in
which the operators bind by their precedence and to the left. Reading stops right after the row,
with any number of steps that a source allows. -/
theorem binaryIn_reads_tree {r₁ : Reader} {m : Nat} {first : Value}
    (hfirst : primaryIn g m r = .ok (first, r₁)) (hrest : Operations g r₁ rest r') :
    ∃ t : OperatorTree, (t.first = first ∧ t.rest = rest ∧ t.IsOrdered) ∧
      (∀ u : OperatorTree, u.first = first → u.rest = rest → u.IsOrdered → u = t) ∧
      (∃ n, ∀ k, n ≤ k → binaryIn g 0 k r = .ok (t.value, r')) ∧
      ∀ source j n, r.Has source j → 8 * j + 2 ≤ n → binaryIn g 0 n r = .ok (t.value, r') := by
  obtain ⟨t, later, r₂, ht, hlater, kind, hpeeked⟩ :=
    exists_climbs 0 (.operand first) hrest trivial (by simp [OperatorTree.rest])
  -- Nothing binds looser than the least precedence, so the whole row is taken.
  obtain rfl : later = [] := by
    cases later with
    | nil => rfl
    | cons x later => exact absurd (ht.looser x rfl).1 (Nat.not_lt_zero _)
  obtain ⟨taken, hrow, htrest, -⟩ := ht.taken
  obtain rfl : r₂ = r' := by
    cases hlater with
    | stop hpeek _ =>
      cases hpeeked.symm.trans hpeek
      rfl
  obtain rfl : rest = taken := by rw [hrow, List.append_nil]
  obtain ⟨n, hn⟩ := ht.reads
  have hreads : binaryIn g 0 (m + n + 1) r = .ok (t.value, r₂) := by
    have hprimary := (growing_primaryIn g (show m ≤ m + n by omega)).ok_of_ok hfirst
    have hloop := (growing_operatorsIn g _ _ (show n ≤ m + n by omega)).ok_of_ok hn
    rw [binaryIn, bind_eq_of_ok hprimary]
    exact hloop
  refine ⟨t, ⟨ht.first, htrest, ht.ordered⟩, ?_, ⟨m + n + 1, ?_⟩, ?_⟩
  · intro u hufirst hurest hu
    exact OperatorTree.eq_of_isOrdered hu ht.ordered (hufirst.trans ht.first.symm)
      (hurest.trans htrest.symm)
  · intro k hk
    exact (growing_binaryIn g 0 hk).ok_of_ok hreads
  · intro source j k hr hk
    exact binaryIn_of_has hr hk hreads

/-- A sum with a product in it, compared with a difference. -/
def comparedSum : OperatorTree :=
  .node (.node (.operand (.reference "a")) .add
      (.node (.operand (.reference "b")) .multiply (.operand (.reference "c")))) .equal
    (.node (.operand (.reference "d")) .subtract (.operand (.reference "e")))

def comparedSumReader : Reader :=
  ⟨(Lexer.ofSource "$a + $b * $c == $d - $e").setMode .value, none, 0⟩

def isComparedSum : Except SyntaxError ((Value × List (Operator × Value)) × Reader) → Bool
  | .ok ((.reference a, [(.add, .reference b), (.multiply, .reference c), (.equal, .reference d),
      (.subtract, .reference e)]), _) => [a, b, c, d, e] == ["a", "b", "c", "d", "e"]
  | _ => false

theorem binaryIn_reads_comparedSum :
    ∃ r₁ r', primaryIn { comparison := true } 1 comparedSumReader = .ok (.reference "a", r₁) ∧
      Operations { comparison := true } r₁ comparedSum.rest r' ∧
      ∃ n, binaryIn { comparison := true } 0 n comparedSumReader = .ok (comparedSum.value, r') := by
  have hrow : ∃ r₁ r',
      primaryIn { comparison := true } 1 comparedSumReader = .ok (.reference "a", r₁) ∧
        Operations { comparison := true } r₁ comparedSum.rest r' := by
    have h : isComparedSum ((do return (← primaryIn { comparison := true } 1,
      ← operationsIn { comparison := true } 5)) comparedSumReader) = true := by decide +kernel
    unfold isComparedSum at h
    split at h
    · rename_i hrun
      obtain ⟨first, r₁, hfirst, hrun⟩ := ok_of_bind hrun
      obtain ⟨rest, r', hrest, hrun⟩ := ok_of_bind hrun
      cases hrun
      cases beq_iff_eq.1 h
      exact ⟨r₁, _, hfirst, operations_of_operationsIn hrest⟩
    · cases h
  obtain ⟨r₁, r', hfirst, hrest⟩ := hrow
  obtain ⟨t, -, hunique, ⟨n, hn⟩, -⟩ := binaryIn_reads_tree hfirst hrest
  have hordered : comparedSum.IsOrdered := by
    simp [comparedSum, OperatorTree.IsOrdered, OperatorTree.rest, Operator.precedence]
  obtain rfl := hunique comparedSum rfl rfl hordered
  exact ⟨r₁, r', hfirst, hrest, n, hn n le_rfl⟩

end Reading

end Stylesheet
