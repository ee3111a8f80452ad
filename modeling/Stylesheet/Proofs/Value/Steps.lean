import Stylesheet.Proofs.Token.Reading
import Stylesheet.Proofs.Value.Shape

/-!
# Steps to read a value

Reading a value takes a number of steps along. More steps never change what is read, and a reader of
a source has enough of them: only the number that makes reading give up is ever seen.

* `Extends`: reading that goes on where other reading runs out of steps.
* `extendsValues`: one more step, for all that values are read by; `Growing`: any number of them.
* `exists_runs_bind`: two readings that each have enough steps.
* `binaryIn_of_has`, `valueListIn_of_has`: what is read with any number of steps is read with those
  that a source allows.
-/

namespace Stylesheet

theorem Position.PointsInto.ne_unknown {p : Position} {text : List Char} (h : p.PointsInto text) :
    p ≠ .unknown := by
  obtain ⟨before, -, rfl⟩ := h
  intro hunknown
  have hline := congrArg Position.line hunknown
  rw [Position.advance_start] at hline
  simp only [Position.unknown] at hline
  omega

namespace Reading

/-! ## More steps -/

section Extends

variable {α β : Type}

/-- Reading that ran out of steps. Its error stands at no place of a text. -/
def IsExhausted : Except SyntaxError (α × Reader) → Prop
  | .error e => e.position = .unknown
  | .ok _ => False

/-- `q` does what `p` does, unless `p` runs out of steps. -/
def Extends (p q : Reading α) : Prop := ∀ r, IsExhausted (p r) ∨ q r = p r

variable {p q : Reading α} {f f' : α → Reading β}

theorem Extends.refl (p : Reading α) : Extends p p := fun _ => .inr rfl

theorem Extends.trans {u : Reading α} (h : Extends p q) (h' : Extends q u) : Extends p u := by
  intro r
  rcases h r with hexhausted | heq
  · exact .inl hexhausted
  · rw [← heq]
    exact h' r

theorem extends_exhausted (reading : Construct) (q : Reading α) :
    Extends (exhausted reading) q := fun _ => .inl rfl

theorem Extends.bind (h : Extends p q) (hf : ∀ a, Extends (f a) (f' a)) :
    Extends (p >>= f) (q >>= f') := by
  intro r
  show IsExhausted (p r >>= fun x => f x.1 x.2) ∨
    (q r >>= fun x => f' x.1 x.2) = p r >>= fun x => f x.1 x.2
  rcases h r with hexhausted | heq
  · cases hp : p r with
    | error e =>
      rw [hp] at hexhausted
      exact .inl hexhausted
    | ok x =>
      rw [hp] at hexhausted
      exact hexhausted.elim
  · rw [heq]
    cases p r with
    | error e => exact .inr rfl
    | ok x => exact hf x.1 x.2

/-- Reading the same first, and then something else. -/
theorem extends_bind (p : Reading α) (hf : ∀ a, Extends (f a) (f' a)) :
    Extends (p >>= f) (p >>= f') := (Extends.refl p).bind hf

end Extends

/-! ## One more step -/

/-- What values are read by, with `n` steps and with `m`. -/
structure ExtendsValues (n m : Nat) : Prop where
  valueList : ∀ g, Extends (valueListIn g n) (valueListIn g m)
  groups : ∀ g groups, Extends (groupsIn g groups n) (groupsIn g groups m)
  spaceList : ∀ g components, Extends (spaceListIn g components n) (spaceListIn g components m)
  binary : ∀ g least, Extends (binaryIn g least n) (binaryIn g least m)
  operators : ∀ g least left, Extends (operatorsIn g least left n) (operatorsIn g least left m)
  primary : ∀ g, Extends (primaryIn g n) (primaryIn g m)
  call : ∀ g name, Extends (callIn g name n) (callIn g name m)
  interpolation : ∀ g, Extends (interpolationIn g n) (interpolationIn g m)

namespace ExtendsValues

variable {g : Grammar} {n m : Nat}

theorem trans {k : Nat} (h : ExtendsValues n m) (h' : ExtendsValues m k) : ExtendsValues n k where
  valueList g := (h.valueList g).trans (h'.valueList g)
  groups g groups := (h.groups g groups).trans (h'.groups g groups)
  spaceList g components := (h.spaceList g components).trans (h'.spaceList g components)
  binary g least := (h.binary g least).trans (h'.binary g least)
  operators g least left := (h.operators g least left).trans (h'.operators g least left)
  primary g := (h.primary g).trans (h'.primary g)
  call g name := (h.call g name).trans (h'.call g name)
  interpolation g := (h.interpolation g).trans (h'.interpolation g)

theorem groups_succ (ih : ExtendsValues n m) (groups : List Value) :
    Extends (groupsIn g groups (n + 1)) (groupsIn g groups (m + 1)) := by
  rw [groupsIn, groupsIn]
  refine extends_bind _ fun kind => ?_
  split
  · refine extends_bind _ fun _ => (ih.spaceList g []).bind fun group => ?_
    exact ih.groups g (group :: groups)
  · exact .refl _

theorem spaceList_succ (ih : ExtendsValues n m) (components : List Value) :
    Extends (spaceListIn g components (n + 1)) (spaceListIn g components (m + 1)) := by
  rw [spaceListIn, spaceListIn]
  refine extends_bind _ fun t => ?_
  cases t with
  | none => exact .refl _
  | some t =>
    dsimp only
    split
    · exact .refl _
    · refine (ih.binary g 0).bind fun term => ?_
      cases components with
      | nil => exact ih.spaceList g [term]
      | cons last before =>
        dsimp only
        split
        · exact ih.spaceList g _
        · exact ih.spaceList g _

theorem operators_succ (ih : ExtendsValues n m) (least : Nat) (left : Value) :
    Extends (operatorsIn g least left (n + 1)) (operatorsIn g least left (m + 1)) := by
  rw [operatorsIn, operatorsIn]
  refine extends_bind _ fun kind => ?_
  split
  · exact .refl _
  · split
    · exact .refl _
    · refine extends_bind _ fun _ => (ih.binary g _).bind fun right => ?_
      exact ih.operators g least _

theorem primary_succ (ih : ExtendsValues n m) :
    Extends (primaryIn g (n + 1)) (primaryIn g (m + 1)) := by
  rw [primaryIn, primaryIn]
  refine extends_bind _ fun t => ?_
  split
  · exact .refl _
  · exact .refl _
  · refine extends_bind _ fun follows => ?_
    split
    · exact ih.call g _
    · exact .refl _
  · exact (ih.interpolation g).bind fun v => .refl _
  · exact (ih.valueList g).bind fun v => .refl _
  · exact .refl _

theorem call_succ (ih : ExtendsValues n m) (name : String) :
    Extends (callIn g name (n + 1)) (callIn g name (m + 1)) := by
  rw [callIn, callIn]
  refine extends_bind _ fun opening => extends_bind _ fun kind => ?_
  split
  · exact .refl _
  · exact (ih.valueList _).bind fun args => .refl _

end ExtendsValues

theorem extendsValues_succ (n : Nat) : ExtendsValues n (n + 1) := by
  induction n with
  | zero => constructor <;> intros <;> exact extends_exhausted .value _
  | succ n ih =>
    exact {
      valueList := fun g => by
        rw [valueListIn, valueListIn]
        exact (ih.spaceList g []).bind fun first => ih.groups g [first]
      groups := fun _ => ih.groups_succ
      spaceList := fun _ => ih.spaceList_succ
      binary := fun g least => by
        rw [binaryIn, binaryIn]
        exact (ih.primary g).bind fun left => ih.operators g least left
      operators := fun _ => ih.operators_succ
      primary := fun _ => ih.primary_succ
      call := fun _ => ih.call_succ
      interpolation := fun g => by
        rw [interpolationIn, interpolationIn]
        refine extends_bind _ fun _ => (ih.binary _ 0).bind fun v => .refl _ }

theorem extendsValues {n m : Nat} (h : n ≤ m) : ExtendsValues n m := by
  induction h with
  | refl => constructor <;> intros <;> exact .refl _
  | step _ ih => exact ih.trans (extendsValues_succ _)

/-! ## Any number of steps -/

section Growing

variable {α β : Type} {r : Reader}

/-- More steps change nothing but running out of them. -/
def Growing (f : Nat → Reading α) : Prop := ∀ ⦃n m⦄, n ≤ m → Extends (f n) (f m)

theorem growing_const (p : Reading α) : Growing fun _ => p := fun _ _ _ => .refl p

theorem growing_valueListIn (g : Grammar) : Growing (valueListIn g) :=
  fun _ _ hle => (extendsValues hle).valueList g

theorem growing_groupsIn (g : Grammar) (groups : List Value) : Growing (groupsIn g groups) :=
  fun _ _ hle => (extendsValues hle).groups g groups

theorem growing_spaceListIn (g : Grammar) (components : List Value) :
    Growing (spaceListIn g components) :=
  fun _ _ hle => (extendsValues hle).spaceList g components

theorem growing_binaryIn (g : Grammar) (least : Nat) : Growing (binaryIn g least) :=
  fun _ _ hle => (extendsValues hle).binary g least

theorem growing_operatorsIn (g : Grammar) (least : Nat) (left : Value) :
    Growing (operatorsIn g least left) :=
  fun _ _ hle => (extendsValues hle).operators g least left

theorem growing_primaryIn (g : Grammar) : Growing (primaryIn g) :=
  fun _ _ hle => (extendsValues hle).primary g

theorem Extends.ok_of_ok {p q : Reading α} (h : Extends p q) {x : α × Reader} (hp : p r = .ok x) :
    q r = .ok x := by
  rcases h r with hexhausted | heq
  · rw [hp] at hexhausted
    exact hexhausted.elim
  · rw [heq, hp]

/-- Two readings that each have enough steps have enough of them together. -/
theorem exists_runs_bind {f : Nat → Reading α} {next : α → Nat → Reading β} (hf : Growing f)
    (hnext : ∀ a, Growing (next a)) {Q : β → Reader → Prop}
    (h : ∃ n, Runs (f n) r fun a r' => ∃ n, Runs (next a n) r' Q) :
    ∃ n, Runs (f n >>= fun a => next a n) r Q := by
  obtain ⟨n, a, r₁, hrun, m, b, r₂, hrun', hQ⟩ := h
  refine ⟨n + m, runs_bind ⟨a, r₁, (hf ?_).ok_of_ok hrun, b, r₂, (hnext a ?_).ok_of_ok hrun', hQ⟩⟩
  · omega
  · omega

/-- A reading that takes no steps, before one that does. -/
theorem exists_runs_after {p : Reading α} {next : α → Nat → Reading β} {Q : β → Reader → Prop}
    (h : Runs p r fun a r' => ∃ n, Runs (next a n) r' Q) :
    ∃ n, Runs (p >>= fun a => next a n) r Q := by
  obtain ⟨a, r', hrun, n, hn⟩ := h
  exact ⟨n, runs_bind ⟨a, r', hrun, hn⟩⟩

end Growing

/-! ## Enough steps -/

section Enough

variable {α : Type} {p q : Reading α} {r : Reader} {source : List Char} {j : Nat}

/-- Reading of a source with the steps that it allows never runs out of them. -/
theorem Extends.eq_of_reads (h : Extends p q) {k : Nat} {Q : α → Prop} (hp : Reads source j k p Q)
    (hr : r.Has source j) : q r = p r := by
  rcases h r with hexhausted | heq
  · have hmeets := hp r hr
    cases hpr : p r with
    | error e =>
      rw [hpr] at hexhausted hmeets
      exact absurd hexhausted hmeets.position.ne_unknown
    | ok x =>
      rw [hpr] at hexhausted
      exact hexhausted.elim
  · exact heq

/-- What is read with some number of steps is read with the steps that a source allows. -/
theorem ok_of_reads {f : Nat → Reading α} (hf : Growing f) {k n m : Nat}
    {Q : α → Prop} (hn : Reads source j k (f n) Q) (hr : r.Has source j) {x : α × Reader}
    (hm : f m r = .ok x) : f n r = .ok x := by
  have henough := hf (Nat.le_max_left n m)
  have hmore := hf (Nat.le_max_right n m)
  rw [← henough.eq_of_reads hn hr]
  exact hmore.ok_of_ok hm

theorem binaryIn_of_has {g : Grammar} {least n m : Nat} {x : Value × Reader} (hr : r.Has source j)
    (hn : 8 * j + 2 ≤ n) (hm : binaryIn g least m r = .ok x) : binaryIn g least n r = .ok x :=
  ok_of_reads (growing_binaryIn g least) ((readsValues source n).binary g j least hn) hr hm

theorem valueListIn_of_has {g : Grammar} {n m : Nat} {x : Value × Reader} (hr : r.Has source j)
    (hn : 8 * j + 4 ≤ n) (hm : valueListIn g m r = .ok x) : valueListIn g n r = .ok x :=
  ok_of_reads (growing_valueListIn g) ((readsValues source n).valueList g j hn) hr hm

end Enough

end Reading

end Stylesheet
