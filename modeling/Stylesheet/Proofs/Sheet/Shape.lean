import Stylesheet.Proofs.Sheet.Selectors
import Stylesheet.Proofs.Value.Shape

/-!
# The sheets that are read

Every item takes at least one token, and what it gives depends on where it stands: how many style
rules are open around it, and whether it is in a block.

* `Node.children`, `Node.values`, `Node.conditions`: what a node holds; `Sheet.Holds`: the nodes of
  a sheet with those around them.
* `Node.IsRead`: the nodes that are read within so many style rules, in a block or not.
* `ReadsItems`: what reading does with so many steps; `readsItems`: two for every character will do.
* `read_wellFormed`: every node of a sheet that was read is well formed.
-/

namespace Stylesheet

/-! ## What a sheet holds -/

/-- The interpolated values of a selector. -/
def Selector.values (s : Selector) : List Value :=
  s.alternatives.flatten.filterMap fun
    | .value v => some v
    | _ => none

theorem Selector.mem_values {s : Selector} {v : Value} :
    v ∈ s.values ↔ ∃ alt ∈ s.alternatives, Piece.value v ∈ alt := by
  rw [values, List.mem_filterMap]
  constructor
  · rintro ⟨piece, hpiece, hv⟩
    obtain ⟨alt, halt, hmem⟩ := List.mem_flatten.1 hpiece
    cases piece with
    | value w =>
      obtain rfl := Option.some.inj hv
      exact ⟨alt, halt, hmem⟩
    | _ => cases hv
  · rintro ⟨alt, halt, hmem⟩
    exact ⟨.value v, List.mem_flatten.2 ⟨alt, halt, hmem⟩, rfl⟩

namespace Node

/-- The nodes in the blocks of a node. -/
def children : Node → List Node
  | .block _ body => body
  | .mixin _ _ body => body
  | .branch _ body otherwise => body ++ otherwise
  | .loop _ _ _ _ body => body
  | _ => []

/-- The values of a node other than its conditions. -/
def values : Node → List Value
  | .block (.style selector _) _ => selector.values
  | .declaration d => [d.value]
  | .assignment a => [a.value]
  | .mixin _ params _ => params.filterMap Parameter.default
  | .inclusion i => i.args.toList
  | _ => []

/-- The condition of a branch and the bounds of a loop. -/
def conditions : Node → List Value
  | .branch condition _ _ => [condition]
  | .loop _ first last _ _ => [first, last]
  | _ => []

def isStyle : Node → Bool
  | .block (.style _ _) _ => true
  | _ => false

end Node

/-- A node of a sheet, and the nodes around it from the inside out. -/
inductive Sheet.Holds (sheet : Sheet) : List Node → Node → Prop
  | root {node : Node} (h : node ∈ sheet.nodes) : Holds sheet [] node
  | child {ancestors : List Node} {parent node : Node} (hparent : Holds sheet ancestors parent)
      (h : node ∈ parent.children) : Holds sheet (parent :: ancestors) node

/-! ## Nodes that are read -/

/-- A selector in normal form whose values were read. -/
structure Selector.IsRead (s : Selector) : Prop where
  isNormal : s.IsNormal
  values : ∀ v ∈ s.values, v.IsRead {}

def Head.isStyle : Head → Bool
  | .style _ _ => true
  | _ => false

namespace Node

/-- The nodes that are read within `depth` style rules, in the sheet itself or in a block. -/
inductive IsRead : Nat → Bool → Node → Prop
  | style {depth : Nat} {topLevel : Bool} {s : Selector} {body : List Node} (hs : s.IsRead)
      (hbody : ∀ node ∈ body, IsRead (depth + 1) false node) :
      IsRead depth topLevel (.block (.style s (depth + 1)) body)
  | block {depth : Nat} {topLevel : Bool} {head : Head} {body : List Node}
      (hhead : head.isStyle = false) (hbody : ∀ node ∈ body, IsRead depth false node) :
      IsRead depth topLevel (.block head body)
  | statement {depth : Nat} {topLevel : Bool} (name prelude : String) :
      IsRead depth topLevel (.statement name prelude)
  | importRule {depth : Nat} {topLevel : Bool} (url : String) :
      IsRead depth topLevel (.importRule url)
  | declaration {depth : Nat} {d : Declaration} (h : d.value.IsRead {}) :
      IsRead depth false (.declaration d)
  | assignment {depth : Nat} {topLevel : Bool} {a : Assignment} (h : a.value.IsRead {}) :
      IsRead depth topLevel (.assignment a)
  | comment {depth : Nat} (text : String) : IsRead depth true (.comment text)
  | mixin {depth : Nat} {topLevel : Bool} {name : String} {params : List Parameter}
      {body : List Node} (hparams : ∀ p ∈ params, ∀ v ∈ p.default, v.IsRead {})
      (hbody : ∀ node ∈ body, IsRead depth false node) :
      IsRead depth topLevel (.mixin name params body)
  | inclusion {depth : Nat} {topLevel : Bool} {i : Inclusion} (h : ∀ v ∈ i.args, v.IsRead {}) :
      IsRead depth topLevel (.inclusion i)
  | branch {depth : Nat} {topLevel : Bool} {condition : Value} {body otherwise : List Node}
      (hcondition : condition.IsRead { comparison := true })
      (hbody : ∀ node ∈ body, IsRead depth false node)
      (hotherwise : ∀ node ∈ otherwise, IsRead depth false node) :
      IsRead depth topLevel (.branch condition body otherwise)
  | loop {depth : Nat} {topLevel : Bool} {counter : String} {first last : Value} {inclusive : Bool}
      {body : List Node} (hfirst : first.IsRead { comparison := true })
      (hlast : last.IsRead { comparison := true })
      (hbody : ∀ node ∈ body, IsRead depth false node) :
      IsRead depth topLevel (.loop counter first last inclusive body)

variable {depth : Nat} {topLevel : Bool} {node : Node}

theorem IsRead.children (h : node.IsRead depth topLevel) :
    ∀ child ∈ node.children, child.IsRead (depth + if node.isStyle then 1 else 0) false := by
  cases h with
  | style _ hbody => exact hbody
  | @block _ _ head _ hhead hbody =>
    cases head with
    | style => cases hhead
    | _ => exact hbody
  | mixin _ hbody => exact hbody
  | branch _ hbody hotherwise => exact List.forall_mem_append.2 ⟨hbody, hotherwise⟩
  | loop _ _ hbody => exact hbody
  | _ => exact fun _ hchild => absurd hchild List.not_mem_nil

theorem IsRead.values (h : node.IsRead depth topLevel) : ∀ v ∈ node.values, v.IsRead {} := by
  cases h with
  | style hs _ => exact hs.values
  | @block _ _ head _ hhead _ =>
    cases head with
    | style => cases hhead
    | _ => exact fun _ hv => absurd hv List.not_mem_nil
  | declaration h => exact List.forall_mem_singleton.2 h
  | assignment h => exact List.forall_mem_singleton.2 h
  | mixin hparams _ =>
    intro v hv
    obtain ⟨p, hp, hdefault⟩ := List.mem_filterMap.1 hv
    exact hparams p hp v hdefault
  | inclusion h => exact fun v hv => h v (Option.mem_toList.1 hv)
  | _ => exact fun _ hv => absurd hv List.not_mem_nil

theorem IsRead.conditions (h : node.IsRead depth topLevel) :
    ∀ v ∈ node.conditions, v.IsRead { comparison := true } := by
  cases h with
  | branch hcondition _ _ => exact List.forall_mem_singleton.2 hcondition
  | loop hfirst hlast _ => exact List.forall_mem_cons.2 ⟨hfirst, List.forall_mem_singleton.2 hlast⟩
  | _ => exact fun _ hv => absurd hv List.not_mem_nil

theorem IsRead.topLevel_of_comment {text : String} (h : (Node.comment text).IsRead depth topLevel) :
    topLevel = true := by
  cases h
  rfl

theorem IsRead.topLevel_of_declaration {d : Declaration}
    (h : (Node.declaration d).IsRead depth topLevel) : topLevel = false := by
  cases h
  rfl

theorem IsRead.of_style {s : Selector} {d : Nat} {body : List Node}
    (h : (Node.block (.style s d) body).IsRead depth topLevel) : d = 1 + depth ∧ s.IsRead := by
  cases h with
  | style hs _ => exact ⟨Nat.add_comm depth 1, hs⟩
  | block hhead _ => cases hhead

end Node

theorem Sheet.Holds.isRead {sheet : Sheet} {ancestors : List Node} {node : Node}
    (h : sheet.Holds ancestors node) (hsheet : ∀ n ∈ sheet.nodes, n.IsRead 0 true) :
    node.IsRead (ancestors.countP Node.isStyle) ancestors.isEmpty := by
  induction h with
  | root h => exact hsheet _ h
  | child _ h ih =>
    have hchild := ih.children _ h
    rw [List.countP_cons]
    exact hchild

namespace Reading

variable {source : List Char} {j n : Nat}

/-! ## Selectors and preludes -/

theorem reads_selectorFrom {alternatives : List Alternative} {current : Alternative}
    (hn : j + 1 ≤ n) (halternatives : ∀ alt ∈ alternatives, ∀ v, .value v ∈ alt → v.IsRead {})
    (hcurrent : ∀ v, .value v ∈ current → v.IsRead {}) :
    Reads source j (j - 1) (selectorFrom alternatives current n) fun s =>
      (∀ alt ∈ s.alternatives, alt.IsNormal) ∧ ∀ v ∈ s.values, v.IsRead {} := by
  induction n generalizing j alternatives current with
  | zero => omega
  | succ n ih =>
    rw [selectorFrom]
    refine (reads_require .selector).bind fun t ht => ?_
    obtain ⟨-, hj⟩ := id ht
    dsimp only
    generalize hspaced : (if t.spaceBefore then Piece.space :: current else current) = spaced
    have hspaced : ∀ v, .value v ∈ spaced → v.IsRead {} := by
      intro v hv
      subst hspaced
      split at hv
      · exact hcurrent v (by simpa using hv)
      · exact hcurrent v hv
    have hfinished : ∀ alt ∈ spaced.reverse :: alternatives, ∀ v, .value v ∈ alt → v.IsRead {} :=
      List.forall_mem_cons.2
        ⟨fun v hv => hspaced v (List.mem_reverse.1 hv), halternatives⟩
    have hnext : ∀ piece : Piece, (∀ v, piece = .value v → v.IsRead {}) →
        Reads source (j - 1) (j - 1) (selectorFrom alternatives (piece :: spaced) n) fun s =>
          (∀ alt ∈ s.alternatives, alt.IsNormal) ∧ ∀ v ∈ s.values, v.IsRead {} := by
      intro piece hpiece
      refine (ih (by omega) halternatives fun v hv => ?_).of_le (Nat.sub_le _ 1)
      rcases List.mem_cons.1 hv with hv | hv
      · exact hpiece v hv.symm
      · exact hspaced v hv
    split
    · refine .pure ⟨fun alt halt => Selector.mem_ofAlternatives halt, fun v hv => ?_⟩
      obtain ⟨alt, halt, hmem⟩ := Selector.mem_values.1 hv
      obtain ⟨raw, hraw, hsubset⟩ := Selector.exists_of_mem_ofAlternatives halt
      exact hfinished raw (List.mem_reverse.1 hraw) v (hsubset hmem)
    · exact (ih (by omega) hfinished (by simp)).of_le (Nat.sub_le _ 1)
    · exact hnext .parent fun v hv => by cases hv
    · refine reads_interpolation.bind fun v hv => ?_
      refine (reads_setMode .selector).bind fun _ _ => hnext (.value v) fun w hw => ?_
      cases hw
      exact hv
    · exact reads_unexpected ht .selector
    · exact reads_unexpected ht .selector
    · exact hnext (.word t.text) fun v hv => by cases hv

theorem reads_selector : Reads source j (j - 1) selector Selector.IsRead := by
  refine reads_here.bind fun start hstart => reads_room.bind fun n hn => ?_
  refine (reads_selectorFrom (by omega) (by simp) (by simp)).bind fun s hs => ?_
  split
  · exact reads_fail hstart .nil
  · rename_i hne
    exact .pure ⟨⟨by simpa [Selector.isEmpty] using hne, hs.1⟩, hs.2⟩

/-- What reading does right after the token `t` was taken, which may still be given back. -/
def ReadsAfter {α : Type} (source : List Char) (j : Nat) (t : Token) (p : Reading α)
    (Q : α → Prop) : Prop :=
  ∀ r : Reader, r.Has source (j - 1) → Reader.Has { r with lexer := r.lexer.rewind t } source j →
    Meets source j Q (p r)

theorem Reads.readsAfter {α : Type} {t : Token} {p : Reading α} {Q : α → Prop}
    (h : Reads source (j - 1) (j - 1) p Q) : ReadsAfter source j t p Q :=
  fun r hr hback =>
    (h r hr).mono (fun _ hr' => hr'.of_le (Nat.sub_le j 1) hback.bound) fun _ ha => ha

theorem reads_next_bind {α : Type} {f : Option Token → Reading α} {Q : α → Prop}
    (hnone : Reads source j j (f none) Q)
    (hsome : ∀ t, IsToken source j t → ReadsAfter source j t (f (some t)) Q) :
    Reads source j j (next >>= f) Q := by
  intro r hr
  show Meets source j Q (next r >>= fun x => f x.1 x.2)
  cases h : next r with
  | error e => exact next_locates hr h
  | ok x =>
    obtain ⟨t, r'⟩ := x
    obtain ⟨hhas, hback⟩ := next_has hr h
    cases t with
    | none => exact hnone r' (hhas.of_le (Nat.sub_le j 1) hr.bound)
    | some t => exact hsome t (hback t rfl).1 r' hhas (hback t rfl).2

theorem reads_preludeFrom {blockRequired : Bool} {text : String} (hn : j + 1 ≤ n) :
    Reads source j j (preludeFrom blockRequired text n) fun _ => True := by
  induction n generalizing j text with
  | zero => omega
  | succ n ih =>
    rw [preludeFrom]
    refine reads_next_bind ?_ fun t ht => ?_
    · dsimp only
      split
      · exact reads_unexpectedEnd .atRule
      · exact .pure trivial
    · have hj : 0 < j := ht.2
      dsimp only
      split
      · exact Reads.readsAfter (.pure trivial)
      · split
        · exact Reads.readsAfter (reads_unexpected ht .atRule)
        · exact Reads.readsAfter (.pure trivial)
      · split
        · exact Reads.readsAfter (reads_unexpected ht .atRule)
        · exact fun _ _ hback => ⟨hback, trivial⟩
      · refine Reads.readsAfter (reads_interpolation.bind fun v _ => ?_)
        exact (reads_setMode .selector).bind fun _ _ => ih (by omega)
      · exact Reads.readsAfter (ih (by omega))

theorem reads_prelude (blockRequired : Bool) :
    Reads source j j (prelude blockRequired) fun _ => True := by
  refine (reads_setMode .selector).bind fun _ _ => reads_room.bind fun n hn => ?_
  refine (reads_preludeFrom (by omega)).bind fun result _ => ?_
  dsimp only
  split
  · exact (reads_setMode .block).bind fun _ _ => .pure trivial
  · exact .pure trivial

/-! ## Statements -/

theorem reads_propertyName {name : String} (hn : j + 1 ≤ n) (hname : Pieced source name.toList) :
    Reads source j (j - 1) (propertyName name n) fun name => Pieced source name.toList := by
  induction n generalizing j name with
  | zero => omega
  | succ n ih =>
    rw [propertyName]
    refine (reads_require .declaration).bind fun t ht => ?_
    have hnext (hkind : ¬ (t.kind = .comment ∨ t.kind = .slash ∨ t.kind = .text)) :
        Reads source (j - 1) (j - 1) (propertyName (name ++ t.text) n) fun name =>
          Pieced source name.toList := by
      refine (ih (by have := ht.left; omega) ?_).of_le (Nat.sub_le _ 1)
      rw [String.toList_append]
      exact hname.append ht.text_part (.inr fun hslash => hkind (ht.written.slash hslash))
    split
    · split
      · exact reads_unexpected ht .declaration
      · exact .pure hname
    · exact hnext (by simp_all)
    · exact hnext (by simp_all)
    · exact hnext (by simp_all)
    · exact hnext (by simp_all)
    · exact hnext (by simp_all)
    · exact hnext (by simp_all)
    · exact reads_unexpected ht .declaration

theorem reads_declaration {depth : Nat} (position : Position) :
    Reads source j (j - 1) (declaration position) (Node.IsRead depth false) := by
  refine reads_room.bind fun n hn => ?_
  refine (reads_propertyName (by omega) .nil).bind fun name hname => ?_
  refine (reads_setMode .value).bind fun _ _ => reads_valueList.bind fun value hvalue => ?_
  split
  · exact reads_here.bind fun _ hhere => reads_fail hhere hname
  · exact (reads_endStatement .declaration).bind fun _ _ => .pure (.declaration hvalue)

theorem isRead_splitDefault {g : Grammar} {v : Value} (h : v.IsRead g) :
    (splitDefault v).1.IsRead g := by
  unfold splitDefault
  split
  · cases h with
    | list h =>
      split
      · exact Value.isRead_ofComponents fun v hv => h v (List.dropLast_subset _ hv)
      · exact .list h
  · exact h

theorem reads_assignment {depth : Nat} {topLevel : Bool} :
    Reads source j (j - 1) assignment (Node.IsRead depth topLevel) := by
  refine (reads_expect .reference .assignment).bind fun t _ => ?_
  refine Reads.of_le ?_ (Nat.sub_le (j - 1) 1)
  refine (reads_setMode .value).bind fun _ _ => (reads_expect .colon .assignment).bind fun _ _ => ?_
  refine reads_valueList.bind fun value hvalue => ?_
  exact (reads_endStatement .assignment).bind fun _ _ =>
    .pure (.assignment (isRead_splitDefault hvalue))

theorem reads_skipStatement (hn : j + 1 ≤ n) :
    Reads source j j (skipStatement n) fun _ => True := by
  induction n generalizing j with
  | zero => omega
  | succ n ih =>
    rw [skipStatement]
    refine reads_peekKind.bind fun kind hkind => ?_
    split
    · exact .pure trivial
    · exact .pure trivial
    · exact .pure trivial
    · have hj : 0 < j := hkind rfl
      refine Reads.of_le ?_ (Nat.sub_le j 1)
      exact reads_skip.bind fun _ _ => ih (by omega)

theorem reads_importRule {depth : Nat} {topLevel : Bool} :
    Reads source j j importRule (Node.IsRead depth topLevel) := by
  have hfinish (url : String) : Reads source (j - 1) (j - 1) (importRule.finish url)
      (Node.IsRead depth topLevel) := by
    refine reads_room.bind fun n hn => (reads_skipStatement (by omega)).bind fun _ _ => ?_
    exact (reads_endStatement .importRule).bind fun _ _ => .pure (.importRule url)
  refine Reads.of_le ?_ (Nat.sub_le j 1)
  refine (reads_setMode .value).bind fun _ _ => (reads_require .importRule).bind fun t ht => ?_
  split
  · exact hfinish _
  · exact hfinish _
  · exact reads_unexpected ht .importRule

theorem reads_arguments :
    Reads source j j inclusion.arguments fun args => ∀ v ∈ args, Value.IsRead {} v := by
  have hle : j - 1 - 1 ≤ j := by omega
  refine Reads.of_le ?_ hle
  refine reads_skip.bind fun _ _ => reads_peekKind.bind fun kind _ => ?_
  split
  · exact (reads_expect .rightParen .inclusion).bind fun _ _ => .pure (by simp)
  · have hsome : Reads source (j - 1) (j - 1) (some <$> valueList) fun args =>
        ∀ v ∈ args, Value.IsRead {} v :=
      reads_valueList.bind fun v hv => .pure (by simpa using hv)
    refine hsome.bind fun args hargs => ?_
    exact (reads_expect .rightParen .inclusion).bind fun _ _ => .pure hargs

theorem reads_inclusion {depth : Nat} {topLevel : Bool} (position : Position) :
    Reads source j j (inclusion position) (Node.IsRead depth topLevel) := by
  refine Reads.of_le ?_ (Nat.sub_le j 1)
  refine (reads_setMode .value).bind fun _ _ => ?_
  refine (reads_expect .ident .inclusion).bind fun name _ => ?_
  refine reads_peekKind.bind fun kind _ => ?_
  split
  · refine reads_arguments.bind fun args hargs => ?_
    exact (reads_endStatement .inclusion).bind fun _ _ => .pure (.inclusion hargs)
  · exact (reads_endStatement .inclusion).bind fun _ _ => .pure (.inclusion (by simp))

/-! ## Rules with a block -/

theorem reads_parametersFrom {found : List Parameter} (hn : j + 1 ≤ n)
    (hfound : ∀ p ∈ found, ∀ v ∈ p.default, v.IsRead {}) :
    Reads source j j (parametersFrom found n) fun params =>
      ∀ p ∈ params, ∀ v ∈ p.default, v.IsRead {} := by
  induction n generalizing j found with
  | zero => omega
  | succ n ih =>
    rw [parametersFrom]
    refine Reads.of_le ?_ (Nat.sub_le j 1)
    refine (reads_require .mixin).bind fun t ht => ?_
    have hj : 0 < j := ht.2
    split
    · exact .pure fun p hp => hfound p (List.mem_reverse.1 hp)
    · exact ih (by omega) hfound
    · refine reads_peekKind.bind fun kind _ => ?_
      split
      · refine Reads.of_le ?_ (Nat.sub_le (j - 1) 1)
        refine reads_skip.bind fun _ _ => reads_spaceList.bind fun v hv => ?_
        exact ih (by omega) (List.forall_mem_cons.2 ⟨by simpa using hv, hfound⟩)
      · exact ih (by omega) (List.forall_mem_cons.2 ⟨by simp, hfound⟩)
    · exact reads_unexpected ht .mixin

theorem reads_parameters : Reads source j j parameters fun params =>
    ∀ p ∈ params, ∀ v ∈ p.default, v.IsRead {} := by
  refine reads_peekKind.bind fun kind _ => ?_
  split
  · refine Reads.of_le ?_ (Nat.sub_le j 1)
    exact reads_skip.bind fun _ _ => reads_room.bind fun n hn =>
      reads_parametersFrom (by omega) (by simp)
  · exact .pure (by simp)

theorem reads_nameFollows (kind : TokenKind) (name : String) :
    Reads source j j (nameFollows kind name) fun _ => True :=
  reads_peek.bind fun _ _ => .pure trivial

/-- What reading a block does within `depth` style rules. -/
def ReadsBlock (source : List Char) (depth k : Nat) (body : Position → Reading (List Node)) : Prop :=
  ∀ start, start.PointsInto source →
    Reads source k k (body start) fun nodes => ∀ node ∈ nodes, node.IsRead depth false

section Blocks

variable {body : Position → Reading (List Node)} {depth : Nat} {topLevel : Bool} {start : Position}
  (hstart : start.PointsInto source) (hbody : ∀ k ≤ j, ReadsBlock source depth k body)
include hstart hbody

theorem reads_mixin : Reads source j j (mixin body start) (Node.IsRead depth topLevel) := by
  have hle : j - 1 - 1 ≤ j := by omega
  refine Reads.of_le ?_ hle
  refine (reads_setMode .value).bind fun _ _ => (reads_expect .ident .mixin).bind fun name _ => ?_
  refine reads_parameters.bind fun params hparams => ?_
  refine (reads_expect .leftBrace .mixin).bind fun _ _ => ?_
  exact (hbody _ hle start hstart).bind fun nodes hnodes => .pure (.mixin hparams hnodes)

theorem reads_blockRule {head : String → Head} (hhead : ∀ text, (head text).isStyle = false) :
    Reads source j j (blockRule body start head) (Node.IsRead depth topLevel) := by
  refine (reads_prelude true).bind fun result _ => ?_
  exact (hbody j (Nat.le_refl j) start hstart).bind fun nodes hnodes =>
    .pure (.block (hhead _) hnodes)

theorem reads_otherRule (name : String) :
    Reads source j j (otherRule body start name) (Node.IsRead depth topLevel) := by
  refine (reads_prelude false).bind fun result _ => ?_
  dsimp only
  split
  · exact (hbody j (Nat.le_refl j) start hstart).bind fun nodes hnodes =>
      .pure (.block rfl hnodes)
  · exact .pure (.statement _ _)

theorem reads_loop : Reads source j j (loop body start) (Node.IsRead depth topLevel) := by
  have hrest {k : Nat} (hk : k ≤ j) (counter : String) {first : Value}
      (hfirst : first.IsRead { comparison := true }) (keyword : Token) :
      Reads source k k (do
        let last ← condition
        let _ ← expect .leftBrace .forRule
        return Node.loop counter first last (keyword.text = "through") (← body start))
      (Node.IsRead depth topLevel) := by
    have hle : k - 1 - 1 ≤ k := by omega
    refine Reads.of_le ?_ hle
    refine reads_condition.bind fun last hlast => ?_
    refine (reads_expect .leftBrace .forRule).bind fun _ _ => ?_
    exact (hbody _ (hle.trans hk) start hstart).bind fun nodes hnodes =>
      .pure (.loop hfirst hlast hnodes)
  have hbounds {k : Nat} (hk : k ≤ j) (counter : String) : Reads source k k (do
      let first ← condition
      let keyword ← expect .ident .forRule
      if keyword.text ≠ "through" ∧ keyword.text ≠ "to" then unexpected .forRule keyword
      let last ← condition
      let _ ← expect .leftBrace .forRule
      return Node.loop counter first last (keyword.text = "through") (← body start))
      (Node.IsRead depth topLevel) := by
    have hle : k - 1 - 1 ≤ k := by omega
    refine Reads.of_le ?_ hle
    refine reads_condition.bind fun first hfirst => ?_
    refine (reads_expect .ident .forRule).bind fun keyword hkeyword => ?_
    dsimp only
    split
    · exact (reads_unexpected (P := fun _ => True) hkeyword .forRule).bind fun _ _ =>
        hrest (hle.trans hk) counter hfirst keyword
    · exact hrest (hle.trans hk) counter hfirst keyword
  have hle : j - 1 - 1 ≤ j := by omega
  refine Reads.of_le ?_ hle
  refine (reads_setMode .value).bind fun _ _ => ?_
  refine (reads_expect .reference .forRule).bind fun counter _ => ?_
  refine (reads_expect .ident .forRule).bind fun keyword hkeyword => ?_
  dsimp only
  split
  · exact (reads_unexpected (P := fun _ => True) hkeyword .forRule).bind fun _ _ =>
      hbounds hle counter.name
  · exact hbounds hle counter.name

end Blocks

section Alternatives

variable {body : Position → Reading (List Node)} {depth : Nat} {topLevel : Bool} {start : Position}

theorem reads_branch (hn : j + 1 ≤ n) (hstart : start.PointsInto source)
    (hbody : ∀ k ≤ j, ReadsBlock source depth k body) :
    Reads source j j (branch body start n) (Node.IsRead depth topLevel) := by
  induction n generalizing j start topLevel with
  | zero => omega
  | succ n ih =>
    rw [branch]
    have hle : j - 1 - 1 ≤ j := by omega
    refine Reads.of_le ?_ hle
    refine reads_condition.bind fun test htest => ?_
    refine (reads_expect .leftBrace .ifRule).bind fun _ _ => ?_
    refine (hbody _ hle start hstart).bind fun whenTrue hwhenTrue => ?_
    refine (reads_nameFollows .atKeyword "else").bind fun isElse _ => ?_
    split
    · have hle' : j - 1 - 1 - 1 - 1 ≤ j - 1 - 1 := by omega
      refine Reads.of_le ?_ hle'
      refine (reads_expect .atKeyword .elseRule).bind fun t ht => ?_
      obtain ⟨hposition, hj⟩ := ht
      refine (reads_setMode .value).bind fun _ _ => ?_
      refine (reads_nameFollows .ident "if").bind fun isIf _ => ?_
      have hbody' : ∀ k ≤ j - 1 - 1 - 1 - 1, ReadsBlock source depth k body :=
        fun k hk => hbody k (by omega)
      split
      · have hbranch : Reads source _ _ (branch body t.position n) (Node.IsRead depth false) :=
          ih (by omega) hposition hbody'
        refine reads_skip.bind fun _ _ => hbranch.bind fun node hnode => .pure ?_
        exact .branch htest hwhenTrue (List.forall_mem_singleton.2 hnode)
      · refine (reads_expect .leftBrace .elseRule).bind fun _ _ => ?_
        refine (hbody' _ (Nat.le_refl _) _ hposition).bind fun nodes hnodes => .pure ?_
        exact .branch htest hwhenTrue hnodes
    · exact .pure (.branch htest hwhenTrue (by simp))

theorem reads_atRule (hbody : ∀ k < j, ReadsBlock source depth k body) :
    Reads source j (j - 1) (atRule body) (Node.IsRead depth topLevel) := by
  refine (reads_expect .atKeyword .atRule).bind fun t ht => ?_
  obtain ⟨hposition, hj⟩ := ht
  have hbody' : ∀ k ≤ j - 1, ReadsBlock source depth k body := fun k hk => hbody k (by omega)
  split
  · exact reads_importRule
  · exact reads_blockRule hposition hbody' fun _ => rfl
  · exact reads_blockRule hposition hbody' fun _ => rfl
  · exact reads_blockRule hposition hbody' fun _ => rfl
  · exact reads_mixin hposition hbody'
  · exact reads_inclusion t.position
  · exact reads_room.bind fun n hn => reads_branch (by omega) hposition hbody'
  · exact reads_loop hposition hbody'
  · exact reads_fail hposition .nil
  · exact reads_otherRule hposition hbody' t.name

theorem reads_styleRule (hj : 0 < j) (hbody : ∀ k < j, ReadsBlock source (depth + 1) k body) :
    Reads source j (j - 1) (styleRule body (depth + 1)) (Node.IsRead depth topLevel) := by
  refine (reads_setMode .selector).bind fun _ _ => reads_here.bind fun start hstart => ?_
  refine reads_selector.bind fun s hs => ?_
  exact (hbody (j - 1) (by omega) start hstart).bind fun nodes hnodes => .pure (.style hs hnodes)

end Alternatives

/-! ## Blocks and sheets -/

/-- What reading items does with `n` steps. An item takes two of them, one in its block and one
before it, and at least one token. -/
structure ReadsItems (source : List Char) (n : Nat) : Prop where
  items : ∀ j depth opening found, 2 * j + 1 ≤ n →
    (∀ start ∈ opening, Position.PointsInto start source) →
    (∀ node ∈ found, node.IsRead depth opening.isNone) →
    Reads source j j (itemsFrom depth opening found n) fun nodes =>
      ∀ node ∈ nodes, node.IsRead depth opening.isNone
  item : ∀ j depth topLevel t, 2 * j ≤ n → IsToken source j t →
    Reads source j (j - 1) (itemFrom depth topLevel t n) (Node.IsRead depth topLevel)

namespace ReadsItems

theorem items_succ (ih : ReadsItems source n) {depth : Nat} {opening : Option Position}
    {found : List Node} (hn : 2 * j + 1 ≤ n + 1)
    (hopening : ∀ start ∈ opening, Position.PointsInto start source)
    (hfound : ∀ node ∈ found, node.IsRead depth opening.isNone) :
    Reads source j j (itemsFrom depth opening found (n + 1)) fun nodes =>
      ∀ node ∈ nodes, node.IsRead depth opening.isNone := by
  have hdone : ∀ node ∈ found.reverse, node.IsRead depth opening.isNone :=
    fun node hnode => hfound node (List.mem_reverse.1 hnode)
  rw [itemsFrom]
  refine reads_peek.bind fun t ht => ?_
  cases t with
  | none =>
    cases opening with
    | none => exact .pure hdone
    | some start => exact reads_fail (hopening start rfl) .nil
  | some t =>
    have htoken := ht t rfl
    have hj : 0 < j := htoken.2
    -- All but what ends the block goes on with less to read.
    have hgo (found : List Node) (hfound : ∀ node ∈ found, node.IsRead depth opening.isNone) :
        Reads source (j - 1) (j - 1) (itemsFrom depth opening found n) fun nodes =>
          ∀ node ∈ nodes, node.IsRead depth opening.isNone :=
      ih.items (j - 1) depth opening found (by omega) hopening hfound
    have hitem : Reads source j (j - 1) (do
        let node ← itemFrom depth opening.isNone t n
        itemsFrom depth opening (node :: found) n) fun nodes =>
          ∀ node ∈ nodes, node.IsRead depth opening.isNone :=
      (ih.item j depth opening.isNone t (by omega) htoken).bind fun node hnode =>
        hgo _ (List.forall_mem_cons.2 ⟨hnode, hfound⟩)
    refine Reads.of_le ?_ (Nat.sub_le j 1)
    dsimp only
    split
    · exact reads_skip.bind fun _ _ => hgo found hfound
    · exact reads_unexpected htoken .stylesheet
    · exact reads_skip.bind fun _ _ => .pure hdone
    · exact reads_skip.bind fun _ _ => hgo _ (List.forall_mem_cons.2 ⟨.comment _, hfound⟩)
    · exact reads_skip.bind fun _ _ => hgo found hfound
    · exact hitem

theorem item_succ (ih : ReadsItems source n) {depth : Nat} {topLevel : Bool} {t : Token}
    (hn : 2 * j ≤ n + 1) (ht : IsToken source j t) :
    Reads source j (j - 1) (itemFrom depth topLevel t (n + 1)) (Node.IsRead depth topLevel) := by
  obtain ⟨hposition, hj⟩ := ht
  have hbody (depth : Nat) : ∀ k < j, ReadsBlock source depth k (fun start => do
      setMode .block
      itemsFrom depth (some start) [] n) := by
    intro k hk start hstart
    refine (reads_setMode .block).bind fun _ _ => ?_
    exact ih.items k depth (some start) [] (by omega) (by simpa using hstart) (by simp)
  rw [itemFrom]
  dsimp only
  split
  · exact reads_atRule (hbody depth)
  · exact reads_assignment
  · split
    · exact reads_styleRule hj (hbody (depth + 1))
    · split
      · exact reads_fail hposition .nil
      · rename_i htop
        obtain rfl : topLevel = false := by simpa using htop
        exact reads_declaration t.position
    · split
      · exact reads_styleRule hj (hbody (depth + 1))
      · rename_i htop
        obtain rfl : topLevel = false := by simpa using htop
        exact reads_declaration t.position

end ReadsItems

theorem readsItems (source : List Char) (n : Nat) : ReadsItems source n := by
  induction n with
  | zero =>
    constructor
    · intros
      omega
    · intro j depth topLevel t hn ht
      have hj : 0 < j := ht.2
      omega
  | succ n ih =>
    exact {
      items := fun _ _ _ _ => ih.items_succ
      item := fun _ _ _ _ => ih.item_succ }

/-- A whole text gives the nodes of a sheet or an error at a place of the text. -/
theorem meets_itemsFrom (source : String) :
    Meets source.toList source.toList.length (fun nodes => ∀ node ∈ nodes, node.IsRead 0 true)
      (itemsFrom 0 none [] (Reader.ofSource source).room (.ofSource source)) := by
  have hhas := Reader.has_ofSource source
  have hroom := hhas.room
  simp only [Reader.stepsPerToken] at hroom
  exact (readsItems source.toList _).items _ 0 none [] (by omega) (by simp) (by simp) _ hhas

end Reading

/-! ## Well-formed sheets -/

/-- What holds of a node of a sheet, by the nodes around it. -/
structure Node.WellFormed (ancestors : List Node) (node : Node) : Prop where
  style : ∀ s depth body, node = .block (.style s depth) body →
    depth = 1 + ancestors.countP Node.isStyle ∧ s.IsNormal
  comment : ∀ text, node = .comment text → ancestors = []
  declaration : ∀ d, node = .declaration d → ancestors ≠ []
  values : ∀ v ∈ node.values, v.WellFormed false
  conditions : ∀ v ∈ node.conditions, v.WellFormed true

theorem isRead_of_read {source : String} {sheet : Sheet} (h : Sheet.read source = .ok sheet) :
    ∀ node ∈ sheet.nodes, node.IsRead 0 true := by
  have hmeets := Reading.meets_itemsFrom source
  unfold Sheet.read at h
  dsimp only at h
  split at h
  · rename_i nodes r hread
    cases h
    change Reading.itemsFrom 0 none [] _ _ = _ at hread
    rw [hread] at hmeets
    exact hmeets.2
  · cases h

theorem read_wellFormed {source : String} {sheet : Sheet} (h : Sheet.read source = .ok sheet)
    {ancestors : List Node} {node : Node} (hnode : sheet.Holds ancestors node) :
    node.WellFormed ancestors := by
  have hread := hnode.isRead (isRead_of_read h)
  refine ⟨?_, ?_, ?_, fun v hv => (hread.values v hv).wellFormed,
    fun v hv => (hread.conditions v hv).wellFormed⟩
  · rintro s depth body rfl
    obtain ⟨hdepth, hs⟩ := hread.of_style
    exact ⟨hdepth, hs.isNormal⟩
  · rintro text rfl
    exact List.isEmpty_iff.1 hread.topLevel_of_comment
  · rintro d rfl
    exact List.isEmpty_eq_false_iff.1 hread.topLevel_of_declaration

def isNestedSheet : Except SyntaxError Sheet → Bool
  | .ok ⟨[.block (.style _ _) [.branch _ [.block (.style _ _) [.declaration _]] []]]⟩ => true
  | _ => false

/-- A raw function with an interpolation, in a rule in a branch in a rule. -/
theorem read_wellFormed_nested : ∃ sheet outer test inner d,
    Sheet.read "a\x7b@if $x == b\x7b& c,d\x7be:calc(f + #\x7bg + h\x7d)\x7d\x7d\x7d" = .ok sheet ∧
      sheet.Holds [inner, test, outer] (.declaration d) ∧
      [inner, test, outer].countP Node.isStyle = 2 ∧
      inner.WellFormed [test, outer] ∧ (Node.declaration d).WellFormed [inner, test, outer] := by
  have h : isNestedSheet (Sheet.read
      "a\x7b@if $x == b\x7b& c,d\x7be:calc(f + #\x7bg + h\x7d)\x7d\x7d\x7d") = true := by
    decide +kernel
  unfold isNestedSheet at h
  split at h
  · rename_i s₁ depth₁ condition s₂ depth₂ d hread
    have houter : Sheet.Holds ⟨[.block (.style s₁ depth₁)
        [.branch condition [.block (.style s₂ depth₂) [.declaration d]] []]]⟩ [] _ :=
      .root List.mem_cons_self
    have hinner := Sheet.Holds.child (houter.child List.mem_cons_self)
      (List.mem_append_left _ List.mem_cons_self)
    have hd := hinner.child List.mem_cons_self
    exact ⟨_, _, _, _, _, hread, hd, rfl, read_wellFormed hread hinner, read_wellFormed hread hd⟩
  · cases h

end Stylesheet
