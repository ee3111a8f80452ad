import Stylesheet.Sheet.Reader

/-!
# Invariants of readers

Everything that reads a sheet does so by peeking, taking a token, changing the mode and giving a
token back. A property of readers that these four keep is kept by every function that reads.

* `Keeps`, `Yields`: reading that keeps an invariant, and what it gives.
* `Steady`: an invariant of the four steps.
* `keeps_valueListIn`: values; `keeps_prelude`, `yields_declaration`, …: items.
* `yields_itemsFrom`: the items of a sheet, whose selectors have a property.
-/

namespace Stylesheet

namespace Node

mutual

/-- The selectors of all style rules in a node, those in mixins included. -/
def selectors : Node → List Selector
  | .block (.style selector _) body => selector :: allSelectors body
  | .block (.media _) body => allSelectors body
  | .block .fontFace body => allSelectors body
  | .block (.keyframes _) body => allSelectors body
  | .block (.atRule _ _) body => allSelectors body
  | .mixin _ _ body => allSelectors body
  | .branch _ body otherwise => allSelectors body ++ allSelectors otherwise
  | .loop _ _ _ _ body => allSelectors body
  | .statement _ _ => []
  | .importRule _ => []
  | .declaration _ => []
  | .assignment _ => []
  | .comment _ => []
  | .inclusion _ => []

def allSelectors : List Node → List Selector
  | [] => []
  | n :: ns => selectors n ++ allSelectors ns

end

theorem allSelectors_eq_flatMap (nodes : List Node) :
    allSelectors nodes = nodes.flatMap selectors := by
  induction nodes with
  | nil => rfl
  | cons node nodes ih => rw [allSelectors, ih, List.flatMap_cons]

end Node

namespace Reading

/-- If reading from a reader with `P` succeeds, then `Q` holds of the result and of the reader. -/
def Ensures (P : Reader → Prop) {α : Type} (p : Reading α) (Q : α → Reader → Prop) : Prop :=
  ∀ ⦃r : Reader⦄ ⦃a : α⦄ ⦃r' : Reader⦄, P r → p r = .ok (a, r') → Q a r'

/-- Reading leaves `I` true of the reader. -/
def Keeps (I : Reader → Prop) {α : Type} (p : Reading α) : Prop := Ensures I p fun _ => I

/-- Reading leaves `I` true of the reader, and gives a result with `Q`. -/
def Yields (I : Reader → Prop) {α : Type} (p : Reading α) (Q : α → Prop) : Prop :=
  Ensures I p fun a r => I r ∧ Q a

/-- An invariant of the steps that everything is read by. -/
structure Steady (I : Reader → Prop) : Prop where
  peek : Keeps I peek
  next : Keeps I next
  setMode (mode : LexicalMode) : Keeps I (setMode mode)
  /-- A token is given back right after it was taken. -/
  giveBack {r : Reader} {t : Token} {r' : Reader} (hr : I r)
    (h : Reading.next r = .ok (some t, r')) :
    I { r' with lexer := r'.lexer.rewind t }

/-- A selector that is read from a token on that was read ahead has `P`. -/
def ReadsSelectors (I : Reader → Prop) (P : Selector → Prop) : Prop :=
  ∀ ⦃r r₁ r₂ : Reader⦄ ⦃t : Token⦄ ⦃s : Selector⦄, I r → r.ahead = some t →
    setMode .selector r = .ok ((), r₁) → selector r₁ = .ok (s, r₂) → P s

section Rules

variable {I : Reader → Prop} {α β : Type} {p : Reading α} {f : α → Reading β}

theorem ok_of_bind {r r' : Reader} {b : β} (h : (p >>= f) r = .ok (b, r')) :
    ∃ a s, p r = .ok (a, s) ∧ f a s = .ok (b, r') := by
  have hbind : (p >>= f) r = (p r >>= fun x => f x.1 x.2) := rfl
  rw [hbind] at h
  cases hp : p r with
  | error e =>
    rw [hp] at h
    cases h
  | ok x =>
    rw [hp] at h
    exact ⟨x.1, x.2, rfl, h⟩

theorem Ensures.bind {P : Reader → Prop} {Q : α → Reader → Prop} {R : β → Reader → Prop}
    (hp : Ensures P p Q) (hf : ∀ a, Ensures (Q a) (f a) R) : Ensures P (p >>= f) R := by
  intro r b r' hr h
  obtain ⟨a, s, hpa, hfa⟩ := ok_of_bind h
  exact hf a (hp hr hpa) hfa

theorem Ensures.of_imp {P P' : Reader → Prop} {Q : α → Reader → Prop} (hp : Ensures P p Q)
    (h : ∀ r, P' r → P r) : Ensures P' p Q :=
  fun _ _ _ hr hpa => hp (h _ hr) hpa

theorem Keeps.bind (hp : Keeps I p) (hf : ∀ a, Keeps I (f a)) : Keeps I (p >>= f) :=
  Ensures.bind hp hf

theorem Keeps.yields_bind {Q : β → Prop} (hp : Keeps I p) (hf : ∀ a, Yields I (f a) Q) :
    Yields I (p >>= f) Q :=
  Ensures.bind hp hf

theorem Yields.bind {P : α → Prop} {Q : β → Prop} (hp : Yields I p P)
    (hf : ∀ a, P a → Yields I (f a) Q) : Yields I (p >>= f) Q :=
  Ensures.bind hp fun a _ _ _ hr h => hf a hr.2 hr.1 h

theorem Yields.of_leaf {p : Reading Node} {P : Selector → Prop}
    (hp : Yields I p fun node => node.selectors = []) :
    Yields I p fun node => ∀ s ∈ node.selectors, P s := by
  intro r node r' hr h
  obtain ⟨hr', hnode⟩ := hp hr h
  exact ⟨hr', by simp [hnode]⟩

theorem Yields.pure {Q : α → Prop} {a : α} (ha : Q a) : Yields I (pure a : Reading α) Q := by
  intro r b r' hr h
  cases h
  exact ⟨hr, ha⟩

theorem Keeps.pure (a : α) : Keeps I (pure a : Reading α) := by
  intro r b r' hr h
  cases h
  exact hr

theorem ensures_fail {P : Reader → Prop} {Q : α → Reader → Prop} (fault : SyntaxFault)
    (position : Position) : Ensures P (fail fault position) Q := by
  intro r a r' _ h
  cases h

theorem keeps_here : Keeps I here := by
  intro r a r' hr h
  cases h
  exact hr

theorem keeps_room : Keeps I room := by
  intro r a r' hr h
  cases h
  exact hr

theorem ensures_unexpected {P : Reader → Prop} {Q : α → Reader → Prop} (reading : Construct)
    (t : Token) : Ensures P (unexpected reading t) Q :=
  ensures_fail _ _

theorem ensures_unexpectedEnd {P : Reader → Prop} {Q : α → Reader → Prop} (reading : Construct) :
    Ensures P (unexpectedEnd reading) Q :=
  Ensures.bind (Q := fun _ _ => True) (fun _ _ _ _ _ => trivial) fun _ => ensures_fail _ _

theorem ensures_exhausted {P : Reader → Prop} {Q : α → Reader → Prop} (reading : Construct) :
    Ensures P (exhausted reading) Q :=
  ensures_fail _ _

end Rules

section Tokens

variable {I : Reader → Prop} (hI : Steady I)
include hI

theorem keeps_peekKind : Keeps I peekKind := hI.peek.bind fun _ => .pure _

theorem keeps_skip : Keeps I skip := hI.next.bind fun _ => .pure _

theorem keeps_require (reading : Construct) : Keeps I (require reading) := by
  refine hI.next.bind fun t => ?_
  cases t with
  | none => exact ensures_unexpectedEnd reading
  | some t => exact .pure t

theorem keeps_expect (kind : TokenKind) (reading : Construct) : Keeps I (expect kind reading) := by
  refine (keeps_require hI reading).bind fun t => ?_
  split
  · exact .pure t
  · exact ensures_unexpected reading t

theorem keeps_endStatement (reading : Construct) : Keeps I (endStatement reading) := by
  refine hI.peek.bind fun t => ?_
  cases t with
  | none => exact hI.setMode .block
  | some t =>
    dsimp only
    split
    · exact (keeps_skip hI).bind fun _ => hI.setMode .block
    · split
      · exact hI.setMode .block
      · exact (ensures_unexpected reading t).bind fun _ => hI.setMode .block

end Tokens

/-! ## Values -/

section Values

variable {I : Reader → Prop} (hI : Steady I)
include hI

theorem keeps_closeParen (opening : Position) (reading : Construct) :
    Keeps I (closeParen opening reading) := by
  refine hI.next.bind fun t => ?_
  cases t with
  | none => exact ensures_fail _ _
  | some t =>
    dsimp only
    split
    · exact .pure ()
    · split
      · exact ensures_fail _ _
      · exact ensures_unexpected reading t

theorem keeps_quantity (t : Token) : Keeps I (quantity t) := by
  unfold quantity
  split
  · exact ensures_fail _ _
  · refine hI.peek.bind fun u => ?_
    cases u with
    | none => exact .pure _
    | some u =>
      dsimp only
      split
      · exact (keeps_skip hI).bind fun _ => .pure _
      · exact .pure _

theorem keeps_callFollows : Keeps I callFollows := hI.peek.bind fun _ => .pure _

end Values

section Operands

variable {I : Reader → Prop}

mutual

theorem keeps_valueListIn (hI : Steady I) : (g : Grammar) → (n : Nat) → Keeps I (valueListIn g n)
  | g, 0 => ensures_exhausted .value
  | g, n + 1 => by
    rw [valueListIn]
    exact (keeps_spaceListIn hI g [] n).bind fun first => keeps_groupsIn hI g [first] n

theorem keeps_groupsIn (hI : Steady I) : (g : Grammar) → (groups : List Value) → (n : Nat) →
    Keeps I (groupsIn g groups n)
  | g, groups, 0 => ensures_exhausted .value
  | g, groups, n + 1 => by
    rw [groupsIn]
    refine (keeps_peekKind hI).bind fun kind => ?_
    split
    · refine (keeps_skip hI).bind fun _ => ?_
      exact (keeps_spaceListIn hI g [] n).bind fun group => keeps_groupsIn hI g (group :: groups) n
    · exact .pure _

theorem keeps_spaceListIn (hI : Steady I) : (g : Grammar) → (components : List Value) → (n : Nat) →
    Keeps I (spaceListIn g components n)
  | g, components, 0 => ensures_exhausted .value
  | g, components, n + 1 => by
    rw [spaceListIn]
    refine hI.peek.bind fun t => ?_
    cases t with
    | none => exact .pure _
    | some t =>
      dsimp only
      split
      · exact .pure _
      · refine (keeps_binaryIn hI g 0 n).bind fun term => ?_
        split
        · exact keeps_spaceListIn hI g [term] n
        · split
          · exact keeps_spaceListIn hI g _ n
          · exact keeps_spaceListIn hI g _ n

theorem keeps_binaryIn (hI : Steady I) : (g : Grammar) → (least n : Nat) →
    Keeps I (binaryIn g least n)
  | g, least, 0 => ensures_exhausted .value
  | g, least, n + 1 => by
    rw [binaryIn]
    exact (keeps_primaryIn hI g n).bind fun left => keeps_operatorsIn hI g least left n

theorem keeps_operatorsIn (hI : Steady I) : (g : Grammar) → (least : Nat) → (left : Value) →
    (n : Nat) → Keeps I (operatorsIn g least left n)
  | g, least, left, 0 => ensures_exhausted .value
  | g, least, left, n + 1 => by
    rw [operatorsIn]
    refine (keeps_peekKind hI).bind fun kind => ?_
    split
    · exact .pure left
    · split
      · exact .pure left
      · refine (keeps_skip hI).bind fun _ => ?_
        exact (keeps_binaryIn hI g _ n).bind fun right => keeps_operatorsIn hI g least _ n

theorem keeps_primaryIn (hI : Steady I) : (g : Grammar) → (n : Nat) → Keeps I (primaryIn g n)
  | g, 0 => ensures_exhausted .value
  | g, n + 1 => by
    rw [primaryIn]
    refine (keeps_require hI .value).bind fun t => ?_
    split
    · exact keeps_quantity hI t
    · exact .pure _
    · refine (keeps_callFollows hI).bind fun follows => ?_
      split
      · exact keeps_callIn hI g t.text n
      · exact .pure _
    · refine (keeps_interpolationIn hI g n).bind fun v => ?_
      exact (hI.setMode .value).bind fun _ => .pure _
    · refine (keeps_valueListIn hI g n).bind fun v => ?_
      exact (keeps_closeParen hI t.position .value).bind fun _ => .pure v
    · split
      · exact .pure _
      · exact ensures_unexpected .value t

theorem keeps_callIn (hI : Steady I) : (g : Grammar) → (name : String) → (n : Nat) →
    Keeps I (callIn g name n)
  | g, name, 0 => ensures_exhausted .value
  | g, name, n + 1 => by
    rw [callIn]
    refine (keeps_expect hI .leftParen .function).bind fun opening => ?_
    refine (keeps_peekKind hI).bind fun kind => ?_
    split
    · exact Keeps.bind (.pure _) fun _ =>
        (keeps_closeParen hI opening.position .function).bind fun _ => .pure _
    · exact (keeps_valueListIn hI (g.ofArguments name) n).bind fun _ =>
        (keeps_closeParen hI opening.position .function).bind fun _ => .pure _

theorem keeps_interpolationIn (hI : Steady I) : (g : Grammar) → (n : Nat) →
    Keeps I (interpolationIn g n)
  | g, 0 => ensures_exhausted .value
  | g, n + 1 => by
    rw [interpolationIn]
    refine (hI.setMode .value).bind fun _ => ?_
    refine (keeps_binaryIn hI _ 0 n).bind fun v => ?_
    exact (keeps_expect hI .rightBrace .interpolation).bind fun _ => .pure v

end

end Operands

section Entry

variable {I : Reader → Prop} (hI : Steady I)
include hI

theorem keeps_valueList : Keeps I valueList :=
  keeps_room.bind fun n => keeps_valueListIn hI {} n

theorem keeps_spaceList : Keeps I spaceList :=
  keeps_room.bind fun n => keeps_spaceListIn hI {} [] n

theorem keeps_condition : Keeps I condition :=
  (hI.setMode .value).bind fun _ => keeps_room.bind fun n => keeps_binaryIn hI _ 0 n

theorem keeps_interpolation : Keeps I interpolation :=
  keeps_room.bind fun n => keeps_interpolationIn hI {} n

end Entry

/-! ## Selectors, preludes and statements -/

section Statements

variable {I : Reader → Prop} (hI : Steady I)
include hI

theorem keeps_selectorFrom (alternatives : List Alternative) (current : Alternative) (n : Nat) :
    Keeps I (selectorFrom alternatives current n) := by
  induction n generalizing alternatives current with
  | zero => exact ensures_exhausted .selector
  | succ n ih =>
    rw [selectorFrom]
    refine (keeps_require hI .selector).bind fun t => ?_
    dsimp only
    split
    · exact .pure _
    · exact ih _ _
    · exact ih _ _
    · refine (keeps_interpolation hI).bind fun v => ?_
      exact (hI.setMode .selector).bind fun _ => ih _ _
    · exact ensures_unexpected .selector t
    · exact ensures_unexpected .selector t
    · exact ih _ _

theorem keeps_selector : Keeps I selector := by
  refine keeps_here.bind fun start => keeps_room.bind fun n => ?_
  refine (keeps_selectorFrom hI [] [] n).bind fun s => ?_
  split
  · exact ensures_fail _ _
  · exact .pure s

theorem keeps_preludeFrom (blockRequired : Bool) (text : String) (n : Nat) :
    Keeps I (preludeFrom blockRequired text n) := by
  induction n generalizing text with
  | zero => exact ensures_exhausted .atRule
  | succ n ih =>
    rw [preludeFrom]
    -- After a token was taken, it may be given back.
    have hnext : Ensures I next fun t r => I r ∧
        ∀ u, t = some u → I { r with lexer := r.lexer.rewind u } := by
      intro r t r' hr h
      refine ⟨hI.next hr h, fun u hu => ?_⟩
      rw [hu] at h
      exact hI.giveBack hr h
    refine hnext.bind fun t => ?_
    have hkeeps {β : Type} {p : Reading β} (hp : Keeps I p) : Ensures (fun r => I r ∧
        ∀ u, t = some u → I { r with lexer := r.lexer.rewind u }) p fun _ => I :=
      hp.of_imp fun _ hr => hr.1
    cases t with
    | none =>
      dsimp only
      split
      · exact hkeeps (ensures_unexpectedEnd .atRule)
      · exact hkeeps (.pure _)
    | some t =>
      dsimp only
      split
      · exact hkeeps (.pure _)
      · split
        · exact hkeeps (ensures_unexpected .atRule t)
        · exact hkeeps (.pure _)
      · split
        · exact hkeeps (ensures_unexpected .atRule t)
        · intro r a r' hr h
          cases h
          exact hr.2 t rfl
      · refine hkeeps ((keeps_interpolation hI).bind fun v => ?_)
        exact (hI.setMode .selector).bind fun _ => ih _
      · exact hkeeps (ih _)

theorem keeps_prelude (blockRequired : Bool) : Keeps I (prelude blockRequired) := by
  refine (hI.setMode .selector).bind fun _ => keeps_room.bind fun n => ?_
  refine (keeps_preludeFrom hI blockRequired "" n).bind fun result => ?_
  dsimp only
  split
  · exact (hI.setMode .block).bind fun _ => .pure _
  · exact .pure _

theorem keeps_propertyName (name : String) (n : Nat) : Keeps I (propertyName name n) := by
  induction n generalizing name with
  | zero => exact ensures_exhausted .declaration
  | succ n ih =>
    rw [propertyName]
    refine (keeps_require hI .declaration).bind fun t => ?_
    split
    · split
      · exact ensures_unexpected .declaration t
      · exact .pure name
    · exact ih _
    · exact ih _
    · exact ih _
    · exact ih _
    · exact ih _
    · exact ih _
    · exact ensures_unexpected .declaration t

theorem keeps_skipStatement (n : Nat) : Keeps I (skipStatement n) := by
  induction n with
  | zero => exact ensures_exhausted .importRule
  | succ n ih =>
    rw [skipStatement]
    refine (keeps_peekKind hI).bind fun kind => ?_
    split
    · exact .pure ()
    · exact .pure ()
    · exact .pure ()
    · exact (keeps_skip hI).bind fun _ => ih

theorem keeps_parametersFrom (found : List Parameter) (n : Nat) :
    Keeps I (parametersFrom found n) := by
  induction n generalizing found with
  | zero => exact ensures_exhausted .mixin
  | succ n ih =>
    rw [parametersFrom]
    refine (keeps_require hI .mixin).bind fun t => ?_
    split
    · exact .pure _
    · exact ih found
    · refine (keeps_peekKind hI).bind fun kind => ?_
      split
      · refine (keeps_skip hI).bind fun _ => ?_
        exact (keeps_spaceList hI).bind fun v => ih _
      · exact ih _
    · exact ensures_unexpected .mixin t

theorem keeps_parameters : Keeps I parameters := by
  refine (keeps_peekKind hI).bind fun kind => ?_
  split
  · exact (keeps_skip hI).bind fun _ => keeps_room.bind fun n => keeps_parametersFrom hI [] n
  · exact .pure _

theorem keeps_arguments : Keeps I inclusion.arguments := by
  refine (keeps_skip hI).bind fun _ => (keeps_peekKind hI).bind fun kind => ?_
  split
  · exact Keeps.bind (.pure _) fun args =>
      (keeps_expect hI .rightParen .inclusion).bind fun _ => .pure args
  · refine Keeps.bind ((keeps_valueList hI).bind fun _ => .pure _) fun args => ?_
    exact (keeps_expect hI .rightParen .inclusion).bind fun _ => .pure args

theorem keeps_nameFollows (kind : TokenKind) (name : String) : Keeps I (nameFollows kind name) :=
  hI.peek.bind fun _ => .pure _

end Statements

/-! ## Items -/

section Items

variable {I : Reader → Prop} (hI : Steady I)
include hI

theorem yields_declaration (position : Position) :
    Yields I (declaration position) fun node => node.selectors = [] := by
  refine keeps_room.yields_bind fun n => (keeps_propertyName hI "" n).yields_bind fun name => ?_
  refine (hI.setMode .value).yields_bind fun _ => (keeps_valueList hI).yields_bind fun value => ?_
  split
  · exact keeps_here.yields_bind fun _ => ensures_fail _ _
  · exact (keeps_endStatement hI .declaration).yields_bind fun _ => .pure rfl

theorem yields_assignment : Yields I assignment fun node => node.selectors = [] := by
  refine (keeps_expect hI .reference .assignment).yields_bind fun t => ?_
  refine (hI.setMode .value).yields_bind fun _ => ?_
  refine (keeps_expect hI .colon .assignment).yields_bind fun _ => ?_
  refine (keeps_valueList hI).yields_bind fun value => ?_
  exact (keeps_endStatement hI .assignment).yields_bind fun _ => .pure rfl

theorem yields_importRule : Yields I importRule fun node => node.selectors = [] := by
  have hfinish (url : String) :
      Yields I (importRule.finish url) fun node => node.selectors = [] := by
    refine keeps_room.yields_bind fun n => (keeps_skipStatement hI n).yields_bind fun _ => ?_
    exact (keeps_endStatement hI .importRule).yields_bind fun _ => .pure rfl
  refine (hI.setMode .value).yields_bind fun _ => ?_
  refine (keeps_require hI .importRule).yields_bind fun t => ?_
  split
  · exact hfinish _
  · exact hfinish _
  · exact ensures_unexpected .importRule t

theorem yields_inclusion (position : Position) :
    Yields I (inclusion position) fun node => node.selectors = [] := by
  refine (hI.setMode .value).yields_bind fun _ => ?_
  refine (keeps_expect hI .ident .inclusion).yields_bind fun name => ?_
  refine (keeps_peekKind hI).yields_bind fun kind => ?_
  split
  · refine (keeps_arguments hI).yields_bind fun args => ?_
    exact (keeps_endStatement hI .inclusion).yields_bind fun _ => .pure rfl
  · refine Keeps.yields_bind (.pure none) fun args => ?_
    exact (keeps_endStatement hI .inclusion).yields_bind fun _ => .pure rfl

end Items

section Blocks

variable {I : Reader → Prop} (hI : Steady I) {P : Selector → Prop}
  {body : Position → Reading (List Node)}
  (hbody : ∀ start, Yields I (body start) fun nodes => ∀ s ∈ Node.allSelectors nodes, P s)
include hI hbody

theorem yields_mixin (start : Position) :
    Yields I (mixin body start) fun node => ∀ s ∈ node.selectors, P s := by
  refine (hI.setMode .value).yields_bind fun _ => ?_
  refine (keeps_expect hI .ident .mixin).yields_bind fun name => ?_
  refine (keeps_parameters hI).yields_bind fun params => ?_
  refine (keeps_expect hI .leftBrace .mixin).yields_bind fun _ => ?_
  exact (hbody start).bind fun nodes hnodes => .pure hnodes

theorem yields_loop (start : Position) :
    Yields I (loop body start) fun node => ∀ s ∈ node.selectors, P s := by
  refine (hI.setMode .value).yields_bind fun _ => ?_
  refine (keeps_expect hI .reference .forRule).yields_bind fun counter => ?_
  refine (keeps_expect hI .ident .forRule).yields_bind fun keyword => ?_
  have hrest (first : Value) (keyword : Token) : Yields I (do
      let last ← condition
      let _ ← expect .leftBrace .forRule
      return Node.loop counter.name first last (keyword.text = "through") (← body start))
      fun node => ∀ s ∈ node.selectors, P s := by
    refine (keeps_condition hI).yields_bind fun last => ?_
    refine (keeps_expect hI .leftBrace .forRule).yields_bind fun _ => ?_
    exact (hbody start).bind fun nodes hnodes => .pure hnodes
  have hfirst : Yields I (do
      let first ← condition
      let keyword ← expect .ident .forRule
      if keyword.text ≠ "through" ∧ keyword.text ≠ "to" then unexpected .forRule keyword
      let last ← condition
      let _ ← expect .leftBrace .forRule
      return Node.loop counter.name first last (keyword.text = "through") (← body start))
      fun node => ∀ s ∈ node.selectors, P s := by
    refine (keeps_condition hI).yields_bind fun first => ?_
    refine (keeps_expect hI .ident .forRule).yields_bind fun keyword => ?_
    dsimp only
    split
    · exact Ensures.bind (ensures_unexpected .forRule keyword) fun _ => hrest first keyword
    · exact hrest first keyword
  dsimp only
  split
  · exact Ensures.bind (ensures_unexpected .forRule keyword) fun _ => hfirst
  · exact hfirst

theorem yields_blockRule (start : Position) {head : String → Head}
    (hhead : ∀ text nodes, (Node.block (head text) nodes).selectors = Node.allSelectors nodes) :
    Yields I (blockRule body start head) fun node => ∀ s ∈ node.selectors, P s := by
  refine (keeps_prelude hI true).yields_bind fun result => ?_
  refine (hbody start).bind fun nodes hnodes => .pure ?_
  rw [hhead]
  exact hnodes

theorem yields_otherRule (start : Position) (name : String) :
    Yields I (otherRule body start name) fun node => ∀ s ∈ node.selectors, P s := by
  refine (keeps_prelude hI false).yields_bind fun result => ?_
  dsimp only
  split
  · exact (hbody start).bind fun nodes hnodes => .pure hnodes
  · exact .pure (by simp [Node.selectors])

theorem yields_branch (start : Position) (n : Nat) :
    Yields I (branch body start n) fun node => ∀ s ∈ node.selectors, P s := by
  induction n generalizing start with
  | zero => exact ensures_exhausted .ifRule
  | succ n ih =>
    rw [branch]
    refine (keeps_condition hI).yields_bind fun test => ?_
    refine (keeps_expect hI .leftBrace .ifRule).yields_bind fun _ => ?_
    refine (hbody start).bind fun whenTrue hwhenTrue => ?_
    refine (keeps_nameFollows hI .atKeyword "else").yields_bind fun isElse => ?_
    split
    · refine (keeps_expect hI .atKeyword .elseRule).yields_bind fun t => ?_
      refine (hI.setMode .value).yields_bind fun _ => ?_
      refine (keeps_nameFollows hI .ident "if").yields_bind fun isIf => ?_
      split
      · refine (keeps_skip hI).yields_bind fun _ => ?_
        refine (ih t.position).bind fun node hnode => .pure ?_
        simp only [Node.selectors, Node.allSelectors, List.append_nil, List.forall_mem_append]
        exact ⟨hwhenTrue, hnode⟩
      · refine (keeps_expect hI .leftBrace .elseRule).yields_bind fun _ => ?_
        refine (hbody t.position).bind fun nodes hnodes => .pure ?_
        exact List.forall_mem_append.2 ⟨hwhenTrue, hnodes⟩
    · refine .pure (List.forall_mem_append.2 ⟨hwhenTrue, ?_⟩)
      simp [Node.allSelectors]

theorem yields_atRule : Yields I (atRule body) fun node => ∀ s ∈ node.selectors, P s := by
  refine (keeps_expect hI .atKeyword .atRule).yields_bind fun t => ?_
  split
  · exact (yields_importRule hI).of_leaf
  · exact yields_blockRule hI hbody t.position fun _ _ => rfl
  · exact yields_blockRule hI hbody t.position fun _ _ => rfl
  · exact yields_blockRule hI hbody t.position fun _ _ => rfl
  · exact yields_mixin hI hbody t.position
  · exact (yields_inclusion hI t.position).of_leaf
  · exact keeps_room.yields_bind fun n => yields_branch hI hbody t.position n
  · exact yields_loop hI hbody t.position
  · exact ensures_fail _ _
  · exact yields_otherRule hI hbody t.position t.name

/-- A style rule is read from its first token on, which was read ahead. -/
theorem ensures_styleRule (hselector : ReadsSelectors I P) {t : Token} {depth : Nat} :
    Ensures (fun r => I r ∧ r.ahead = some t) (styleRule body depth) fun node r =>
      I r ∧ ∀ s ∈ node.selectors, P s := by
  intro r node r' hr h
  obtain ⟨_, r₁, hmode, h⟩ := ok_of_bind h
  obtain ⟨start, r₁', hhere, h⟩ := ok_of_bind h
  cases hhere
  obtain ⟨s, r₂, hs, h⟩ := ok_of_bind h
  obtain ⟨nodes, r₃, hnodes, h⟩ := ok_of_bind h
  cases h
  have hr₂ : I r₂ := keeps_selector hI (hI.setMode .selector hr.1 hmode) hs
  obtain ⟨hr₃, hP⟩ := hbody _ hr₂ hnodes
  exact ⟨hr₃, List.forall_mem_cons.2 ⟨hselector hr.1 hr.2 hmode hs, hP⟩⟩

end Blocks

section Sheets

variable {I : Reader → Prop} {P : Selector → Prop}

theorem ensures_peek (hI : Steady I) :
    Ensures I peek fun t r => I r ∧ ∀ u, t = some u → r.ahead = some u := by
  intro r t r' hr h
  refine ⟨hI.peek hr h, fun u hu => ?_⟩
  unfold peek at h
  split at h
  · rename_i hahead
    cases h
    exact hahead.trans hu
  · split at h
    · cases h
    · cases h
      exact hu

theorem forall_mem_allSelectors_reverse {found : List Node}
    (h : ∀ s ∈ Node.allSelectors found, P s) : ∀ s ∈ Node.allSelectors found.reverse, P s := by
  intro s hs
  rw [Node.allSelectors_eq_flatMap, List.mem_flatMap] at hs
  obtain ⟨node, hnode, hs⟩ := hs
  refine h s ?_
  rw [Node.allSelectors_eq_flatMap, List.mem_flatMap]
  exact ⟨node, List.mem_reverse.1 hnode, hs⟩

mutual

/-- Every selector that stands in the items of a block has `P`, if every one that is read from the
first token of a style rule on has it. -/
theorem yields_itemsFrom (hI : Steady I) (hselector : ReadsSelectors I P) :
    (n depth : Nat) → (opening : Option Position) → (found : List Node) →
    (∀ s ∈ Node.allSelectors found, P s) →
    Yields I (itemsFrom depth opening found n) fun nodes => ∀ s ∈ Node.allSelectors nodes, P s
  | 0, depth, opening, found, hfound => ensures_exhausted .block
  | n + 1, depth, opening, found, hfound => by
    rw [itemsFrom]
    refine (ensures_peek hI).bind fun t => ?_
    have hyields {p : Reading (List Node)}
        (hp : Yields I p fun nodes => ∀ s ∈ Node.allSelectors nodes, P s) :
        Ensures (fun r => I r ∧ ∀ u, t = some u → r.ahead = some u) p fun nodes r =>
          I r ∧ ∀ s ∈ Node.allSelectors nodes, P s :=
      hp.of_imp fun _ hr => hr.1
    cases t with
    | none =>
      cases opening with
      | none => exact hyields (.pure (forall_mem_allSelectors_reverse hfound))
      | some start => exact hyields (ensures_fail _ _)
    | some t =>
      have hitem : Ensures (fun r => I r ∧ ∀ u, some t = some u → r.ahead = some u) (do
          let node ← itemFrom depth opening.isNone t n
          itemsFrom depth opening (node :: found) n) fun nodes r =>
            I r ∧ ∀ s ∈ Node.allSelectors nodes, P s := by
        have hnode := ensures_itemFrom hI hselector n depth opening.isNone t
        refine (hnode.of_imp fun r hr => ⟨hr.1, hr.2 t rfl⟩).bind fun node => ?_
        intro r nodes r' hr h
        have hfound' : ∀ s ∈ Node.allSelectors (node :: found), P s :=
          List.forall_mem_append.2 ⟨hr.2, hfound⟩
        exact yields_itemsFrom hI hselector n depth opening (node :: found) hfound' hr.1 h
      dsimp only
      split
      · exact hyields ((keeps_skip hI).yields_bind fun _ =>
          yields_itemsFrom hI hselector n depth _ found hfound)
      · exact hyields (ensures_unexpected .stylesheet t)
      · exact hyields ((keeps_skip hI).yields_bind fun _ =>
          .pure (forall_mem_allSelectors_reverse hfound))
      · exact hyields ((keeps_skip hI).yields_bind fun _ =>
          yields_itemsFrom hI hselector n depth _ _ hfound)
      · exact hyields ((keeps_skip hI).yields_bind fun _ =>
          yields_itemsFrom hI hselector n depth _ found hfound)
      · exact hitem

theorem ensures_itemFrom (hI : Steady I) (hselector : ReadsSelectors I P) :
    (n depth : Nat) → (topLevel : Bool) → (t : Token) →
    Ensures (fun r => I r ∧ r.ahead = some t) (itemFrom depth topLevel t n) fun node r =>
      I r ∧ ∀ s ∈ node.selectors, P s
  | 0, depth, topLevel, t =>
    (ensures_exhausted .block).of_imp fun _ hr => hr.1
  | n + 1, depth, topLevel, t => by
    rw [itemFrom]
    have hyields {p : Reading Node} (hp : Yields I p fun node => ∀ s ∈ node.selectors, P s) :
        Ensures (fun r => I r ∧ r.ahead = some t) p fun node r =>
          I r ∧ ∀ s ∈ node.selectors, P s :=
      hp.of_imp fun _ hr => hr.1
    have hbody (depth : Nat) (start : Position) : Yields I (do
        setMode .block
        itemsFrom depth (some start) [] n) fun nodes => ∀ s ∈ Node.allSelectors nodes, P s :=
      (hI.setMode .block).yields_bind fun _ =>
        yields_itemsFrom hI hselector n depth (some start) [] (by simp [Node.allSelectors])
    dsimp only
    split
    · exact hyields (yields_atRule hI (hbody depth))
    · exact hyields (yields_assignment hI).of_leaf
    · split
      · exact ensures_styleRule hI (hbody (depth + 1)) hselector
      · split
        · exact hyields (ensures_fail _ _)
        · exact hyields (yields_declaration hI t.position).of_leaf
      · split
        · exact ensures_styleRule hI (hbody (depth + 1)) hselector
        · exact hyields (yields_declaration hI t.position).of_leaf

end

end Sheets

end Reading

end Stylesheet
