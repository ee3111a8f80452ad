import Stylesheet.Proofs.Evaluation.Shadowing
import Stylesheet.Proofs.Scribe.Bodies

/-!
# Two ways to reduce a value

A value is evaluated for a condition or a bound, and resolved to be written. The two differ in how
they treat lists, joined values and unknown functions, and in the levels that they need: an
expression is resolved by evaluating it one level deeper. Where both come to a value without parts,
it is the same one.

* `ComesTo`: the outcome of work that leaves the session as it was.
* `Deeper`: the same work at a greater depth, which may reach the limit.
* `SameAtoms`: two ways that come to the same values without parts.
* `reductions_agree_on_atoms`: evaluation and resolution do.
-/

namespace Stylesheet

/-! ## Outcomes at a depth -/

/-- At the depth `k` the work has the outcome `o` and leaves the session as it was. -/
def ComesTo {α : Type} (b : Metered α) (k : Nat) (o : Except CompileError α) : Prop :=
  ∀ s : Session, s.depth = k → b s = (o, s)

theorem work_bind_congr {σ α β : Type} {x y : ExceptT CompileError (StateM σ) α}
    {next : α → ExceptT CompileError (StateM σ) β} {s : σ} (h : x s = y s) :
    (x >>= next) s = (y >>= next) s := by
  rcases hy : y s with ⟨o, t⟩
  cases o with
  | error e => rw [work_bind_error (h.trans hy), work_bind_error hy]
  | ok a => rw [work_bind_ok (h.trans hy), work_bind_ok hy]

section Outcomes

variable {α β : Type} {b : Metered α} {g : α → Metered β} {k : Nat} {o : Except CompileError α}

theorem Reduces.comesTo {u : Nat → Scribe α} (h : Reduces u b k) : ∃ o, ComesTo b k o := by
  obtain ⟨o, hb, -⟩ := h
  exact ⟨o, hb⟩

namespace ComesTo

theorem ofExcept (o : Except CompileError α) (k : Nat) : ComesTo (Metered.ofExcept o) k o := by
  intro s _
  cases o <;> rfl

theorem bind_ok {a : α} {o : Except CompileError β} (h : ComesTo b k (.ok a))
    (hg : ComesTo (g a) k o) : ComesTo (b >>= g) k o :=
  fun s hs => (work_bind_ok (h s hs)).trans (hg s hs)

theorem bind_error {e : CompileError} (h : ComesTo b k (.error e)) :
    ComesTo (b >>= g) k (.error e) :=
  fun s hs => work_bind_error (h s hs)

theorem nested (hk : k < Limit.evaluationDepth.max) (h : ComesTo b (k + 1) o) :
    ComesTo (Metered.nested b) k o := by
  intro s hs
  have hinner : b { s with depth := s.depth + 1 } = (o, { s with depth := s.depth + 1 }) :=
    h _ (by simp [hs])
  rw [Metered.nested, Metered.descend_ok (by omega)]
  dsimp only
  rw [hinner]
  rfl

theorem nested_tooDeep (hk : Limit.evaluationDepth.max ≤ k) :
    ComesTo (Metered.nested b) k (.error (.limitExceeded .evaluationDepth "")) := by
  intro s hs
  rw [Metered.nested, Metered.descend_error (by omega)]

end ComesTo

end Outcomes

/-! ## Greater depths -/

/-- At the depth `k`, work that is done as `f` does it at the depth `j` reaches the limit or comes
to the same. -/
def Deeper {α : Type} (j k : Nat) (f g : Metered α) : Prop :=
  ∃ o o', ComesTo f j o ∧ ComesTo g k o' ∧
    (o' = .error (.limitExceeded .evaluationDepth "") ∨ o' = o)

namespace Deeper

variable {α β : Type} {j k : Nat} {f g : Metered α} {f' g' : α → Metered β}

theorem pure (a : α) : Deeper j k (Pure.pure a) (Pure.pure a) :=
  ⟨.ok a, .ok a, fun _ _ => rfl, fun _ _ => rfl, .inr rfl⟩

theorem throw (e : CompileError) :
    Deeper (α := α) j k (MonadExcept.throw e) (MonadExcept.throw e) :=
  ⟨.error e, .error e, fun _ _ => rfl, fun _ _ => rfl, .inr rfl⟩

theorem ofExcept (o : Except CompileError α) :
    Deeper j k (Metered.ofExcept o) (Metered.ofExcept o) :=
  ⟨o, o, .ofExcept o j, .ofExcept o k, .inr rfl⟩

theorem bind (h : Deeper j k f g) (hnext : ∀ a, Deeper j k (f' a) (g' a)) :
    Deeper j k (f >>= f') (g >>= g') := by
  obtain ⟨o, o', hf, hg, hlimit | rfl⟩ := h
  · subst hlimit
    cases o with
    | error e => exact ⟨_, _, hf.bind_error, hg.bind_error, .inl rfl⟩
    | ok a =>
      obtain ⟨o, -, hf', -⟩ := hnext a
      exact ⟨o, _, hf.bind_ok hf', hg.bind_error, .inl rfl⟩
  · cases o' with
    | error e => exact ⟨_, _, hf.bind_error, hg.bind_error, .inr rfl⟩
    | ok a =>
      obtain ⟨o, o', hf', hg', h⟩ := hnext a
      exact ⟨o, o', hf.bind_ok hf', hg.bind_ok hg', h⟩

theorem congruence :
    Congruence fun α (f : Unit → Metered α) (g : Metered α) => Deeper j k (f ()) g :=
  ⟨ofExcept, fun h hnext => h.bind hnext⟩

/-- The greater depth reaches the limit first. -/
theorem nested (hle : j ≤ k) (h : Deeper (j + 1) (k + 1) f g) :
    Deeper j k (Metered.nested f) (Metered.nested g) := by
  obtain ⟨o, o', hf, hg, h⟩ := h
  by_cases hk : k < Limit.evaluationDepth.max
  · exact ⟨o, o', hf.nested (by omega), hg.nested hk, h⟩
  · have hdeep := ComesTo.nested_tooDeep (b := g) (Nat.le_of_not_lt hk)
    by_cases hj : j < Limit.evaluationDepth.max
    · exact ⟨o, _, hf.nested hj, hdeep, .inl rfl⟩
    · exact ⟨_, _, .nested_tooDeep (Nat.le_of_not_lt hj), hdeep, .inl rfl⟩

end Deeper

section Values

variable {functions : FunctionTable} {scope : Scope} {j k : Nat}

/-- The levels that are left matter at the greater depth only. -/
theorem deeper_evaluateIn {n m : Nat} (hroom : Limit.evaluationDepth.max ≤ j + n) (hle : j ≤ k)
    (v : Value) :
    Deeper j k (evaluateIn functions scope n v) (evaluateIn functions scope m v) := by
  induction m generalizing j k n v with
  | zero =>
    have hreduces : Reduces (fun i => Scribe.evaluate functions scope i v)
        (evaluateIn functions scope n v) j := reduces_evaluate hroom v
    obtain ⟨o, ho⟩ := hreduces.comesTo
    exact ⟨o, _, ho, fun _ _ => rfl, .inl rfl⟩
  | succ m ih =>
    cases n with
    | zero =>
      have hdeep : Limit.evaluationDepth.max ≤ k := by omega
      exact ⟨_, _, fun _ _ => rfl, .nested_tooDeep hdeep, .inl rfl⟩
    | succ n =>
      have hdeeper : ∀ v, Deeper (j + 1) (k + 1) (evaluateIn functions scope n v)
          (evaluateIn functions scope m v) := ih (by omega) (by omega)
      exact .nested hle (Deeper.congruence.evaluateBy (f := fun _ => _) hdeeper v)

end Values

/-! ## Values without parts -/

/-- The outcomes of resolving and of evaluating: a value without parts that one of them is, the
other one is too, except that resolving may reach the limit. -/
structure AtomsAgree (resolved evaluated : Except CompileError Value) : Prop where
  evaluated_eq {u : Value} : u.IsAtom → resolved = .ok u → evaluated = .ok u
  resolved_eq {u : Value} : u.IsAtom → evaluated = .ok u →
    resolved = .ok u ∨ resolved = .error (.limitExceeded .evaluationDepth "")

/-- At the depth `k` both ways have outcomes that agree. -/
def SameAtoms (k : Nat) (resolving evaluating : Metered Value) : Prop :=
  ∃ o o', ComesTo resolving k o ∧ ComesTo evaluating k o' ∧ AtomsAgree o o'

theorem AtomsAgree.of_eq {o o' : Except CompileError Value}
    (h : o = .error (.limitExceeded .evaluationDepth "") ∨ o = o') : AtomsAgree o o' := by
  rcases h with rfl | rfl
  · exact ⟨fun _ h => (by cases h), fun _ _ => .inr rfl⟩
  · exact ⟨fun _ h => h, fun _ h => .inl h⟩

section SameAtoms

variable {k : Nat} {f g : Metered Value}

theorem Deeper.sameAtoms (h : Deeper k k f g) : SameAtoms k g f := by
  obtain ⟨o, o', hf, hg, h⟩ := h
  exact ⟨o', o, hg, hf, .of_eq h⟩

/-- One way may take a level more than the other. -/
theorem Deeper.sameAtoms_nested (h : Deeper k (k + 1) f g) :
    SameAtoms k (Metered.nested g) f := by
  obtain ⟨o, o', hf, hg, h⟩ := h
  by_cases hk : k < Limit.evaluationDepth.max
  · exact ⟨o', o, hg.nested hk, hf, .of_eq h⟩
  · exact ⟨_, o, .nested_tooDeep (Nat.le_of_not_lt hk), hf, .of_eq (.inl rfl)⟩

theorem SameAtoms.nested (h : SameAtoms (k + 1) g f) :
    SameAtoms k (Metered.nested g) (Metered.nested f) := by
  obtain ⟨o, o', hg, hf, h⟩ := h
  by_cases hk : k < Limit.evaluationDepth.max
  · exact ⟨o, o', hg.nested hk, hf.nested hk, h⟩
  · have hk := Nat.le_of_not_lt hk
    exact ⟨_, _, .nested_tooDeep hk, .nested_tooDeep hk, .of_eq (.inl rfl)⟩

theorem SameAtoms.ofExcept_bind {f g : Value → Metered Value} (o : Except CompileError Value)
    (h : ∀ v, SameAtoms k (g v) (f v)) :
    SameAtoms k (Metered.ofExcept o >>= g) (Metered.ofExcept o >>= f) := by
  cases o with
  | error e => exact (Deeper.throw e).sameAtoms
  | ok v => exact h v

/-- Two ways of which neither comes to a value without parts. -/
theorem SameAtoms.of_composite {o o' : Except CompileError Value} (hg : ComesTo g k o)
    (hf : ComesTo f k o') (ho : ∀ u, o = .ok u → ¬ u.IsAtom) (ho' : ∀ u, o' = .ok u → ¬ u.IsAtom) :
    SameAtoms k g f :=
  ⟨o, o', hg, hf, fun hu h => absurd hu (ho _ h), fun hu h => absurd hu (ho' _ h)⟩

end SameAtoms

/-- A value that is built from the outcome of some work, and has parts. -/
theorem ComesTo.composite {α : Type} {b : Metered α} {k : Nat} {o : Except CompileError α}
    (h : ComesTo b k o) (build : α → Value) (hbuild : ∀ a, ¬ (build a).IsAtom) :
    ∃ o', ComesTo (b >>= fun a => pure (build a)) k o' ∧ ∀ u, o' = .ok u → ¬ u.IsAtom := by
  cases o with
  | error e => exact ⟨.error e, h.bind_error, fun _ h => by cases h⟩
  | ok a =>
    refine ⟨.ok (build a), h.bind_ok fun _ _ => rfl, ?_⟩
    rintro _ ⟨rfl⟩
    exact hbuild a

/-! ## Agreement -/

section Agreement

variable {functions : FunctionTable} {scope : Scope} {k : Nat}

/-- A call: of a known function it is the same, and of any other one it is an error or a value with
parts. -/
theorem sameAtoms_call {n : Nat} (hroom : Limit.evaluationDepth.max ≤ k + n) (name : String)
    (args : Value) :
    SameAtoms k (resolveBy functions scope (evaluate functions scope) (resolveIn functions scope n)
        (.call name args))
      (callBy functions (evaluateIn functions scope n) name args) := by
  cases hname : functions.contains name with
  | true =>
    rw [resolveBy_call_of_contains hname]
    have hcall : Deeper k k (callBy functions (evaluateIn functions scope n) name args)
        (callBy functions (evaluate functions scope) name args) :=
      Deeper.congruence.callBy (f := fun _ => _) fun _ v _ => deeper_evaluateIn hroom le_rfl v
    exact hcall.sameAtoms
  | false =>
    rw [resolveBy_call_of_not_contains hname]
    have hreduces : Reduces (fun m => Scribe.resolve functions scope m args)
        (resolveIn functions scope n args) k := reduces_resolve hroom args
    obtain ⟨o, ho⟩ := hreduces.comesTo
    obtain ⟨o', ho', hparts⟩ := ho.composite (Value.call name) fun _ h => by cases h
    have hmissing : functions.get? name = none := by
      simpa [Table.contains] using hname
    have hevaluated : ComesTo (callBy functions (evaluateIn functions scope n) name args) k
        (.error (.functionNotRegistered name)) := by
      intro s _
      rw [callBy, hmissing]
      rfl
    exact .of_composite ho' hevaluated hparts fun _ h => by cases h

/-- Items that are resolved one by one, in a value that is evaluated as it stands. -/
theorem sameAtoms_items {n : Nat} (hroom : Limit.evaluationDepth.max ≤ k + n) (items : List Value)
    (build : List Value → Value) (hbuild : ∀ items, ¬ (build items).IsAtom) :
    SameAtoms k (items.mapM (resolveIn functions scope n) >>= fun items => pure (build items))
      (pure (build items)) := by
  have hreduces : Reduces (fun m => items.mapM (Scribe.resolve functions scope m))
      (items.mapM (resolveIn functions scope n)) k :=
    Reduces.congruence.mapM fun v _ => reduces_resolve hroom v
  obtain ⟨o, ho⟩ := hreduces.comesTo
  obtain ⟨o', ho', hparts⟩ := ho.composite build hbuild
  refine .of_composite ho' (fun _ _ => rfl) hparts ?_
  rintro _ ⟨rfl⟩
  exact hbuild items

theorem sameAtoms_resolveIn {n : Nat} (hroom : Limit.evaluationDepth.max ≤ k + n) (v : Value) :
    SameAtoms k (resolveIn functions scope n v) (evaluateIn functions scope n v) := by
  induction n generalizing k v with
  | zero => exact ⟨_, _, fun _ _ => rfl, fun _ _ => rfl, .of_eq (.inl rfl)⟩
  | succ n ih =>
    have hroom' : Limit.evaluationDepth.max ≤ k + 1 + n := by omega
    have hpure (v : Value) : SameAtoms (k + 1) (pure v) (pure v) := (Deeper.pure v).sameAtoms
    -- Both ways use the levels up alike until an expression is reached.
    cases v with
    | reference name => exact (SameAtoms.ofExcept_bind (scope.resolve name) (ih hroom')).nested
    | binary l op r => exact (deeper_evaluateIn hroom (Nat.le_succ k) _).sameAtoms_nested
    | call name args => exact (sameAtoms_call hroom' name args).nested
    | list items separator =>
      exact (sameAtoms_items hroom' items (.list · separator) fun _ h => by cases h).nested
    | joined parts => exact (sameAtoms_items hroom' parts .joined fun _ h => by cases h).nested
    | quantity q => exact (hpure (.quantity q)).nested
    | literal text => exact (hpure (.literal text)).nested
    | boolean truth => exact (hpure (.boolean truth)).nested
    | undefined name => exact (hpure (.undefined name)).nested

theorem evaluate_atom {u : Value} (hu : u.IsAtom) {s : Session}
    (hs : s.depth < Limit.evaluationDepth.max) : evaluate functions scope u s = (.ok u, s) := by
  cases hu <;> exact Metered.gives_nested hs (gives_pure _ _)

theorem depth_lt_of_evaluateIn {n : Nat} {v u : Value} {s t : Session}
    (h : Gives (evaluateIn functions scope n v) s u t) : s.depth < Limit.evaluationDepth.max := by
  cases n with
  | zero => cases h
  | succ n => exact (Metered.of_gives_nested h).1

end Agreement

section Bounds

variable {env : Environment} {scope : Scope} {s : Session} {v u : Value}

/-- A loop sees of its bounds what they are evaluated to. -/
theorem loopRange_congr (h : evaluate env.functions scope v s = evaluate env.functions scope u s)
    (w : Value) (inclusive : Bool) :
    env.loopRange scope v w inclusive s = env.loopRange scope u w inclusive s ∧
      env.loopRange scope w v inclusive s = env.loopRange scope w u inclusive s := by
  have hnumber : evaluateNumber env.functions scope v s = evaluateNumber env.functions scope u s :=
    work_bind_congr h
  refine ⟨work_bind_congr hnumber, ?_⟩
  obtain ⟨o, ho⟩ := (reduces_evaluateNumber env w s.depth).comesTo
  have ho := ho s rfl
  cases o with
  | error e => exact (work_bind_error ho).trans (work_bind_error ho).symm
  | ok first =>
    refine (work_bind_ok ho).trans (Eq.trans ?_ (work_bind_ok ho).symm)
    exact work_bind_congr hnumber

end Bounds

/-- If a value is resolved to one without parts, it is evaluated to the same; if it is evaluated to
one, it is resolved to the same, unless the limit is reached. So a condition and the bounds of a
loop see what a declaration would write. -/
theorem reductions_agree_on_atoms (env : Environment) (scope : Scope) (s : Session) (v u : Value)
    (hu : u.IsAtom) :
    ((resolve env.functions scope v s).1 = .ok u → evaluate env.functions scope v s = (.ok u, s)) ∧
    ((evaluate env.functions scope v s).1 = .ok u →
      resolve env.functions scope v s = (.ok u, s) ∨
      resolve env.functions scope v s = (.error (.limitExceeded .evaluationDepth ""), s)) ∧
    ((resolve env.functions scope v s).1 = .ok u →
      env.chooseBranch scope v s = (.ok u.isTruthy, s) ∧
      ∀ w inclusive, env.loopRange scope v w inclusive s = env.loopRange scope u w inclusive s ∧
        env.loopRange scope w v inclusive s = env.loopRange scope w u inclusive s) := by
  obtain ⟨o, o', ho, ho', h⟩ : SameAtoms s.depth (resolve env.functions scope v)
      (evaluate env.functions scope v) := sameAtoms_resolveIn (evaluationDepth_le_levels _) v
  have ho := ho s rfl
  have ho' := ho' s rfl
  have hevaluated (hresolved : o = .ok u) : evaluate env.functions scope v s = (.ok u, s) := by
    rw [ho', h.evaluated_eq hu hresolved]
  rw [ho]
  refine ⟨hevaluated, fun hevaluated => ?_, fun hresolved => ?_⟩
  · rw [ho'] at hevaluated
    exact (h.resolved_eq hu hevaluated).imp (congrArg (·, s)) (congrArg (·, s))
  · have hv := hevaluated hresolved
    have hsame : evaluate env.functions scope v s = evaluate env.functions scope u s :=
      hv.trans (evaluate_atom hu (depth_lt_of_evaluateIn hv)).symm
    exact ⟨work_bind_ok hv, loopRange_congr hsame⟩

/-- A comparison that is three levels from the limit is resolved to what it is evaluated to. With
two levels it can still be evaluated, but no longer be resolved. -/
theorem comparison_agrees_at_limit :
    (Value.boolean true).IsAtom ∧
    evaluate .empty {} (.binary (.boolean true) .equal (.boolean true)) { depth := 253 } =
      (.ok (.boolean true), { depth := 253 }) ∧
    (evaluate .empty {} (.binary (.boolean true) .equal (.boolean true)) { depth := 254 }).1 =
      .ok (.boolean true) ∧
    resolve .empty {} (.binary (.boolean true) .equal (.boolean true)) { depth := 254 } =
      (.error (.limitExceeded .evaluationDepth ""), { depth := 254 }) := by
  have hagree (s : Session) := reductions_agree_on_atoms ⟨.empty, []⟩ {} s
    (.binary (.boolean true) .equal (.boolean true)) _ (.boolean true)
  refine ⟨.boolean true, (hagree _).1 rfl, rfl, ((hagree _).2.1 rfl).resolve_left fun h => ?_⟩
  exact absurd (congrArg (·.1.toBool) h) (by decide)

end Stylesheet
