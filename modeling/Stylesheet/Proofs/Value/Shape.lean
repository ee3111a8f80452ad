import Stylesheet.Proofs.Token.Progress
import Stylesheet.Value.Reader

/-!
# The values that are read

Which operators a value holds is fixed by the grammar that it is read in. The arguments of a raw
function are read without operators, down to the next interpolation, which has them all again.

* `Value.Contains`: the values within a value.
* `Value.IsRead`: the values that a grammar gives.
* `ReadsValues`: what reading does with so many steps; `readsValues`: every number of steps will do
  that is in proportion to what is left.
-/

namespace Stylesheet

/-! ## Grammars -/

namespace Grammar

/-- The operators of a grammar. -/
structure Allows (g : Grammar) (op : Operator) : Prop where
  arithmetic : g.arithmetic = true
  ne_divide : op ≠ .divide
  comparison : op.isComparison = true → g.comparison = true

theorem allows_of_operator? {g : Grammar} {kind : TokenKind} {op : Operator}
    (h : g.operator? kind = some op) : g.Allows op := by
  obtain ⟨arithmetic, comparison⟩ := g
  cases arithmetic with
  | false => cases h
  | true =>
    cases comparison <;> cases kind <;> cases h <;> exact ⟨rfl, by decide, by decide⟩

/-- What is an operator in `g` is one in `g'`. -/
structure Within (g g' : Grammar) : Prop where
  arithmetic : g.arithmetic = true → g'.arithmetic = true
  comparison : g.comparison = g'.comparison

theorem within_arithmetic (g : Grammar) : g.Within { g with arithmetic := true } :=
  ⟨fun _ => rfl, rfl⟩

theorem ofArguments_within (g : Grammar) (name : String) : (g.ofArguments name).Within g := by
  unfold ofArguments
  split
  · exact ⟨fun h => absurd h Bool.false_ne_true, rfl⟩
  · exact ⟨fun h => h, rfl⟩

theorem ofArguments_raw (g : Grammar) {name : String} (h : name.toLower ∈ rawFunctions) :
    (g.ofArguments name).arithmetic = false := by
  rw [ofArguments, if_pos h]

variable {g g' : Grammar}

theorem Within.allows (h : g.Within g') {op : Operator} (hop : g.Allows op) : g'.Allows op :=
  ⟨h.arithmetic hop.arithmetic, hop.ne_divide, fun hc => h.comparison ▸ hop.comparison hc⟩

theorem Within.ofArguments (h : g.Within g') (name : String) :
    (g.ofArguments name).Within (g'.ofArguments name) := by
  unfold Grammar.ofArguments
  split
  · exact ⟨fun hc => hc, h.comparison⟩
  · exact h

end Grammar

/-! ## Values -/

namespace Value

/-- The values within a value, itself included; those within the parts of a joined value only with
`parts`. -/
inductive Contains (parts : Bool) : Value → Value → Prop
  | self (v : Value) : Contains parts v v
  | item {items : List Value} {separator : Separator} {v w : Value} (hv : v ∈ items)
      (h : Contains parts v w) : Contains parts (.list items separator) w
  | args {name : String} {args w : Value} (h : Contains parts args w) :
      Contains parts (.call name args) w
  | left {left right w : Value} {op : Operator} (h : Contains parts left w) :
      Contains parts (.binary left op right) w
  | right {left right w : Value} {op : Operator} (h : Contains parts right w) :
      Contains parts (.binary left op right) w
  | part {ps : List Value} {v w : Value} (hparts : parts = true) (hv : v ∈ ps)
      (h : Contains parts v w) : Contains parts (.joined ps) w

/-- The values that are read in a grammar. -/
inductive IsRead : Grammar → Value → Prop
  | quantity {g : Grammar} (q : Quantity) : IsRead g (.quantity q)
  | literal {g : Grammar} (text : String) : IsRead g (.literal text)
  | boolean {g : Grammar} (truth : Bool) : IsRead g (.boolean truth)
  | reference {g : Grammar} (name : String) : IsRead g (.reference name)
  | list {g : Grammar} {items : List Value} {separator : Separator}
      (h : ∀ v ∈ items, IsRead g v) : IsRead g (.list items separator)
  | call {g : Grammar} {name : String} {args : Value} (h : IsRead (g.ofArguments name) args) :
      IsRead g (.call name args)
  | binary {g : Grammar} {left right : Value} {op : Operator} (hop : g.Allows op)
      (hl : IsRead g left) (hr : IsRead g right) : IsRead g (.binary left op right)
  | joined {g : Grammar} {parts : List Value}
      (h : ∀ v ∈ parts, IsRead { g with arithmetic := true } v) : IsRead g (.joined parts)

variable {g g' : Grammar} {v w : Value}

theorem IsRead.within (h : IsRead g v) (hg : g.Within g') : IsRead g' v := by
  induction h generalizing g' with
  | quantity q => exact .quantity q
  | literal text => exact .literal text
  | boolean truth => exact .boolean truth
  | reference name => exact .reference name
  | list _ ih => exact .list fun v hv => ih v hv hg
  | @call _ name _ _ ih => exact .call (ih (hg.ofArguments name))
  | binary hop _ _ ihl ihr => exact .binary (hg.allows hop) (ihl hg) (ihr hg)
  | joined _ ih => exact .joined fun v hv => ih v hv ⟨fun _ => rfl, hg.comparison⟩

theorem IsRead.parts (h : IsRead g v) {p : Value} (hp : p ∈ v.parts) :
    IsRead { g with arithmetic := true } p := by
  cases h with
  | joined h => exact h p hp
  | _ =>
    obtain rfl := List.mem_singleton.1 hp
    exact IsRead.within (by constructor <;> assumption) g.within_arithmetic

theorem IsRead.join (hv : IsRead g v) (hw : IsRead g w) : IsRead g (v.join w) := by
  refine .joined fun p hp => ?_
  rcases List.mem_append.1 hp with hp | hp
  · exact hv.parts hp
  · exact hw.parts hp

theorem isRead_ofComponents {vs : List Value} (h : ∀ v ∈ vs, IsRead g v) :
    IsRead g (ofComponents vs) := by
  unfold ofComponents
  split
  · exact h _ (List.mem_singleton_self _)
  · exact .list h

theorem isRead_ofGroups {vs : List Value} (h : ∀ v ∈ vs, IsRead g v) :
    IsRead g (ofGroups vs) := by
  unfold ofGroups
  split
  · exact h _ (List.mem_singleton_self _)
  · exact .list h

theorem isRead_ofIdent (text : String) : IsRead g (ofIdent text) := by
  unfold ofIdent
  split
  · exact .boolean true
  · split
    · exact .boolean false
    · exact .literal text

/-- What a value holds was read in a grammar with the same comparisons, and outside of joined values
in one with no more operators. -/
theorem IsRead.of_contains {parts : Bool} (hc : v.Contains parts w) (h : IsRead g v) :
    ∃ g' : Grammar, g'.comparison = g.comparison ∧
      (parts = false → g'.arithmetic = true → g.arithmetic = true) ∧ IsRead g' w := by
  induction hc generalizing g with
  | self v => exact ⟨g, rfl, fun _ harith => harith, h⟩
  | item hv _ ih =>
    cases h with
    | list h => exact ih (h _ hv)
  | @args name _ _ _ ih =>
    cases h with
    | call h =>
      obtain ⟨g', hcomparison, harith, hw⟩ := ih h
      have hwithin := g.ofArguments_within name
      exact ⟨g', hcomparison.trans hwithin.comparison,
        fun hparts hg' => hwithin.arithmetic (harith hparts hg'), hw⟩
  | left _ ih =>
    cases h with
    | binary _ hl _ => exact ih hl
  | right _ ih =>
    cases h with
    | binary _ _ hr => exact ih hr
  | part hparts hv _ ih =>
    cases h with
    | joined h =>
      obtain ⟨g', hcomparison, -, hw⟩ := ih (h _ hv)
      exact ⟨g', hcomparison, fun hfalse => absurd (hparts.symm.trans hfalse) (by decide), hw⟩

/-! ## What a value may hold -/

/-- No value within is undefined or a division, comparisons stand in it only if they may, and the
arguments of a raw function hold no operators but within the parts of a joined value. -/
def WellFormed (comparisons : Bool) (v : Value) : Prop :=
  ∀ w, v.Contains true w →
    match w with
    | .undefined _ => False
    | .binary _ op _ => op ≠ .divide ∧ (op.isComparison = true → comparisons = true)
    | .call name args =>
      name.toLower ∈ ["calc", "min", "max", "clamp", "var", "env"] →
        ∀ left op right, ¬ args.Contains false (.binary left op right)
    | _ => True

theorem IsRead.wellFormed (h : IsRead g v) : v.WellFormed g.comparison := by
  intro w hw
  obtain ⟨g', hcomparison, -, hread⟩ := h.of_contains hw
  cases hread with
  | binary hop _ _ => exact ⟨hop.ne_divide, fun hc => hcomparison ▸ hop.comparison hc⟩
  | call hargs =>
    intro hraw left op right hbinary
    obtain ⟨g'', -, harith, hread⟩ := hargs.of_contains hbinary
    cases hread with
    | binary hop _ _ =>
      have htrue := harith rfl hop.arithmetic
      rw [g'.ofArguments_raw hraw] at htrue
      cases htrue
  | _ => trivial

end Value

/-! ## Reading -/

namespace Reading

open Value

variable {source : List Char} {g : Grammar} {j n : Nat}

theorem reads_closeParen {opening : Position} (h : opening.PointsInto source)
    (reading : Construct) : Reads source j (j - 1) (closeParen opening reading) fun _ => True := by
  refine reads_next.bind fun t ht => ?_
  cases t with
  | none => exact reads_fail h .nil
  | some t =>
    dsimp only
    split
    · exact .pure trivial
    · split
      · exact reads_fail h .nil
      · exact reads_unexpected (ht t rfl) reading

theorem reads_quantity {t : Token} {i : Nat} (ht : IsToken source i t) :
    Reads source j j (quantity t) (IsRead g) := by
  unfold quantity
  split
  · exact reads_fail ht.position (.of_part ht.text_part)
  · refine reads_peek.bind fun u _ => ?_
    cases u with
    | none => exact .pure (.quantity _)
    | some u =>
      dsimp only
      split
      · exact (reads_skip.of_le (Nat.sub_le j 1)).bind fun _ _ => .pure (.quantity _)
      · exact .pure (.quantity _)

theorem reads_callFollows : Reads source j j callFollows fun _ => True :=
  reads_peek.bind fun _ _ => .pure trivial

/-- What reading values does with `n` steps. Every token allows eight, and an operand takes at least
one token, so that the readers that call each other before it need few more. -/
structure ReadsValues (source : List Char) (n : Nat) : Prop where
  valueList : ∀ g j, 8 * j + 4 ≤ n → Reads source j j (valueListIn g n) (IsRead g)
  groups : ∀ g j groups, 8 * j + 1 ≤ n → (∀ v ∈ groups, IsRead g v) →
    Reads source j j (groupsIn g groups n) (IsRead g)
  spaceList : ∀ g j components, 8 * j + 3 ≤ n → (∀ v ∈ components, IsRead g v) →
    Reads source j j (spaceListIn g components n) (IsRead g)
  binary : ∀ g j least, 8 * j + 2 ≤ n → Reads source j (j - 1) (binaryIn g least n) (IsRead g)
  operators : ∀ g j least left, 8 * j + 1 ≤ n → IsRead g left →
    Reads source j j (operatorsIn g least left n) (IsRead g)
  primary : ∀ g j, 8 * j + 1 ≤ n → Reads source j (j - 1) (primaryIn g n) (IsRead g)
  call : ∀ g j name, 8 * j + 1 ≤ n → Reads source j j (callIn g name n) (IsRead g)
  interpolation : ∀ g j, 8 * j + 3 ≤ n →
    Reads source j j (interpolationIn g n) (IsRead { g with arithmetic := true })

namespace ReadsValues

theorem valueList_succ (ih : ReadsValues source n) (hn : 8 * j + 4 ≤ n + 1) :
    Reads source j j (valueListIn g (n + 1)) (IsRead g) := by
  rw [valueListIn]
  refine (ih.spaceList g j [] (by omega) (by simp)).bind fun first hfirst => ?_
  exact ih.groups g j [first] (by omega) (by simpa using hfirst)

theorem groups_succ (ih : ReadsValues source n) {groups : List Value} (hn : 8 * j + 1 ≤ n + 1)
    (hgroups : ∀ v ∈ groups, IsRead g v) :
    Reads source j j (groupsIn g groups (n + 1)) (IsRead g) := by
  rw [groupsIn]
  refine reads_peekKind.bind fun kind hkind => ?_
  split
  · rename_i hcomma
    have hj : 0 < j := hkind (by rw [hcomma]; rfl)
    refine Reads.of_le ?_ (Nat.sub_le j 1)
    refine reads_skip.bind fun _ _ => ?_
    refine (ih.spaceList g (j - 1) [] (by omega) (by simp)).bind fun group hgroup => ?_
    exact ih.groups g (j - 1) _ (by omega) (List.forall_mem_cons.2 ⟨hgroup, hgroups⟩)
  · exact .pure (isRead_ofGroups fun v hv => hgroups v (List.mem_reverse.1 hv))

theorem spaceList_succ (ih : ReadsValues source n) {components : List Value}
    (hn : 8 * j + 3 ≤ n + 1) (hcomponents : ∀ v ∈ components, IsRead g v) :
    Reads source j j (spaceListIn g components (n + 1)) (IsRead g) := by
  have hdone : IsRead g (.ofComponents components.reverse) :=
    isRead_ofComponents fun v hv => hcomponents v (List.mem_reverse.1 hv)
  rw [spaceListIn]
  refine reads_peek.bind fun t ht => ?_
  cases t with
  | none => exact .pure hdone
  | some t =>
    dsimp only
    split
    · exact .pure hdone
    · have hj : 0 < j := (ht t rfl).2
      refine Reads.of_le ?_ (Nat.sub_le j 1)
      refine (ih.binary g j 0 (by omega)).bind fun term hterm => ?_
      have hnext : ∀ components, (∀ v ∈ components, IsRead g v) →
          Reads source (j - 1) (j - 1) (spaceListIn g components n) (IsRead g) :=
        fun components h => ih.spaceList g (j - 1) components (by omega) h
      cases components with
      | nil => exact hnext _ (by simpa using hterm)
      | cons last before =>
        obtain ⟨hlast, hbefore⟩ := List.forall_mem_cons.1 hcomponents
        dsimp only
        split
        · exact hnext _ (List.forall_mem_cons.2 ⟨hterm, hcomponents⟩)
        · exact hnext _ (List.forall_mem_cons.2 ⟨hlast.join hterm, hbefore⟩)

theorem binary_succ (ih : ReadsValues source n) {least : Nat} (hn : 8 * j + 2 ≤ n + 1) :
    Reads source j (j - 1) (binaryIn g least (n + 1)) (IsRead g) := by
  rw [binaryIn]
  refine (ih.primary g j (by omega)).bind fun left hleft => ?_
  exact ih.operators g (j - 1) least left (by omega) hleft

theorem operators_succ (ih : ReadsValues source n) {least : Nat} {left : Value}
    (hn : 8 * j + 1 ≤ n + 1) (hleft : IsRead g left) :
    Reads source j j (operatorsIn g least left (n + 1)) (IsRead g) := by
  rw [operatorsIn]
  refine reads_peekKind.bind fun kind hkind => ?_
  split
  · exact .pure hleft
  · rename_i op hop
    split
    · exact .pure hleft
    · obtain ⟨k, rfl, hk⟩ := Option.bind_eq_some_iff.1 hop
      have hj : 0 < j := hkind rfl
      have hle : j - 1 - 1 ≤ j := by omega
      refine Reads.of_le ?_ hle
      refine reads_skip.bind fun _ _ => ?_
      refine (ih.binary g (j - 1) _ (by omega)).bind fun right hright => ?_
      exact ih.operators g (j - 1 - 1) least _ (by omega)
        (.binary (Grammar.allows_of_operator? hk) hleft hright)

theorem primary_succ (ih : ReadsValues source n) (hn : 8 * j + 1 ≤ n + 1) :
    Reads source j (j - 1) (primaryIn g (n + 1)) (IsRead g) := by
  rw [primaryIn]
  refine (reads_require .value).bind fun t ht => ?_
  have hj := ht.left
  split
  · exact reads_quantity ht
  · exact .pure (.reference _)
  · refine reads_callFollows.bind fun follows _ => ?_
    split
    · exact ih.call g (j - 1) _ (by omega)
    · exact .pure (isRead_ofIdent _)
  · refine (ih.interpolation g (j - 1) (by omega)).bind fun v hv => ?_
    refine (reads_setMode .value).bind fun _ _ => .pure ?_
    exact .joined (by simpa using hv)
  · refine (ih.valueList g (j - 1) (by omega)).bind fun v hv => ?_
    refine Reads.of_le ?_ (Nat.sub_le (j - 1) 1)
    exact (reads_closeParen ht.position .value).bind fun _ _ => .pure hv
  · split
    · exact .pure (.literal _)
    · exact reads_unexpected ht .value

theorem call_succ (ih : ReadsValues source n) {name : String} (hn : 8 * j + 1 ≤ n + 1) :
    Reads source j j (callIn g name (n + 1)) (IsRead g) := by
  rw [callIn]
  have hle : j - 1 - 1 ≤ j := by omega
  refine Reads.of_le ?_ hle
  refine (reads_expect .leftParen .function).bind fun opening hopening => ?_
  obtain ⟨hposition, hj⟩ := hopening
  refine reads_peekKind.bind fun kind _ => ?_
  split
  · refine (reads_closeParen hposition .function).bind fun _ _ => .pure (.call ?_)
    exact .list (by simp)
  · refine (ih.valueList _ (j - 1) (by omega)).bind fun args hargs => ?_
    exact (reads_closeParen hposition .function).bind fun _ _ => .pure (.call hargs)

theorem interpolation_succ (ih : ReadsValues source n) (hn : 8 * j + 3 ≤ n + 1) :
    Reads source j j (interpolationIn g (n + 1)) (IsRead { g with arithmetic := true }) := by
  rw [interpolationIn]
  have hle : j - 1 - 1 ≤ j := by omega
  refine Reads.of_le ?_ hle
  refine (reads_setMode .value).bind fun _ _ => ?_
  refine (ih.binary _ j 0 (by omega)).bind fun v hv => ?_
  exact (reads_expect .rightBrace .interpolation).bind fun _ _ => .pure hv

end ReadsValues

theorem readsValues (source : List Char) (n : Nat) : ReadsValues source n := by
  induction n with
  | zero => constructor <;> intros <;> omega
  | succ n ih =>
    exact {
      valueList := fun _ _ => ih.valueList_succ
      groups := fun _ _ _ => ih.groups_succ
      spaceList := fun _ _ _ => ih.spaceList_succ
      binary := fun _ _ _ => ih.binary_succ
      operators := fun _ _ _ _ => ih.operators_succ
      primary := fun _ _ => ih.primary_succ
      call := fun _ _ _ => ih.call_succ
      interpolation := fun _ _ => ih.interpolation_succ }

/-! ## Entry points -/

theorem reads_valueList : Reads source j j valueList (IsRead {}) :=
  reads_room.bind fun n hn => (readsValues source n).valueList _ j (by omega)

theorem reads_spaceList : Reads source j j spaceList (IsRead {}) :=
  reads_room.bind fun n hn => (readsValues source n).spaceList _ j [] (by omega) (by simp)

theorem reads_condition : Reads source j (j - 1) condition (IsRead { comparison := true }) :=
  (reads_setMode .value).bind fun _ _ =>
    reads_room.bind fun n hn => (readsValues source n).binary _ j 0 (by omega)

theorem reads_interpolation : Reads source j j interpolation (IsRead {}) :=
  reads_room.bind fun n hn => (readsValues source n).interpolation _ j (by omega)

end Reading

end Stylesheet
