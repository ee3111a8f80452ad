import Stylesheet.Proofs.Scribe.Agreement

/-!
# Inclusions and the items of a block

The work of a scribe on the body of a rule agrees with the functions that have room for so many
inclusions. Every inclusion that is entered was counted, so the room is never used up before the
limit is.

* `agrees_expandInclude`: the body that an inclusion stands for.
* `agrees_evalNodesIn`: the items of a block.
-/

namespace Stylesheet

/-! ## Inclusions -/

section Inclusions

variable {common : Common} {layers layers₀ : List Registry} {scope : Scope} {s t : Session}

theorem Common.SameMixins.mixinBody_eq (h : common.SameMixins layers layers₀) {i : Inclusion}
    (hi : common.mixin i.name) : mixinBody layers₀ scope i = mixinBody layers scope i := by
  rw [mixinBody, mixinBody, h i.name hi]

/-- Counts an inclusion and copies the body of its mixin. -/
def inclusionBody (layers : List Registry) (scope : Scope) (i : Inclusion) :
    Metered (List Node) := do
  Metered.countInclude i.name
  Metered.ofExcept (mixinBody layers scope i)

theorem expandIncludeIn_succ (layers : List Registry) (scope : Scope) (n : Nat) (i : Inclusion) :
    expandIncludeIn layers scope (n + 1) i =
      inclusionBody layers scope i >>= spliceNodes (expandIncludeIn layers scope n) := by
  rw [expandIncludeIn, inclusionBody, bind_assoc]
  congr 1
  funext _
  rw [mixinBody]
  cases Registry.find? layers i.name with
  | none => rfl
  | some m =>
    dsimp only
    cases m.bind i.args scope <;> rfl

theorem ofExcept_eq {α : Type} (o : Except CompileError α) (s : Session) :
    Metered.ofExcept o s = (o, s) := by
  cases o <;> rfl

theorem inclusionBody_ok {i : Inclusion} {body : List Node}
    (h : inclusionBody layers scope i s = (.ok body, t)) :
    s.includes < Limit.includes.max ∧ t = s.bump .includes := by
  have hcount := counts_countInclude i.name
  by_cases hlimit : s.includes < Limit.includes.max
  · rw [inclusionBody, work_bind_ok (hcount.ok s hlimit), ofExcept_eq] at h
    exact ⟨hlimit, (congrArg Prod.snd h).symm⟩
  · obtain ⟨e, herror⟩ := hcount.error
    rw [inclusionBody, work_bind_error (herror s (Nat.le_of_not_lt hlimit))] at h
    cases h

theorem agrees_copyBody (i : Inclusion) :
    Agrees common layers (fun _ => Scribe.copyBody layers scope i)
      (fun ls => inclusionBody ls scope i) s := by
  have hcount := counts_countInclude i.name
  by_cases hlimit : s.includes < Limit.includes.max
  · have hs := hcount.ok s hlimit
    -- A session that counted less is within the limit too.
    have hbounded : ∀ ls, ∀ s₀ : Session, common.Trails s s₀ →
        inclusionBody ls scope i s₀ = (mixinBody ls scope i, s₀.bump .includes) := by
      intro ls s₀ hs₀
      have hused : s₀.includes ≤ s.includes := hs₀.below.includes
      have hcount₀ := hcount.ok s₀ (Nat.lt_of_le_of_lt hused hlimit)
      rw [inclusionBody, work_bind_ok hcount₀, ofExcept_eq]
    have hshadowed : common.mixin i.name → ∀ ls, common.SameMixins layers ls →
        ∀ s₀ : Session, common.Trails s s₀ → ∃ t₀ : Session, common.Trails (s.bump .includes) t₀ ∧
          inclusionBody ls scope i s₀ = (mixinBody layers scope i, t₀) := by
      intro hname ls hls s₀ hs₀
      refine ⟨s₀.bump .includes, hs₀.bump .includes, ?_⟩
      rw [hbounded ls s₀ hs₀, hls.mixinBody_eq hname]
    cases hbody : mixinBody layers scope i with
    | error e =>
      refine ⟨.error e, s.bump .includes, [.lookedUp i.name], ?_, fun d hd => .of_eq fun _ => ?_,
        .bump s _ fun _ => rfl, fun hneutral => ?_⟩
      · rw [hbounded layers s (.refl common s), hbody]
      · subst hd
        rw [Scribe.copyBody, Scribe.bind_ok (Scribe.counted_ok hs), hbody]
        rfl
      · rw [← hbody]
        exact hshadowed (hneutral _ List.mem_cons_self)
    | ok body =>
      refine ⟨.ok body, s.bump .includes, [.lookedUp i.name, .body i.name], ?_,
        fun d hd => .of_eq fun _ => ?_, .bump_one hlimit fun c => ?_, fun hneutral => ?_⟩
      · rw [hbounded layers s (.refl common s), hbody]
      · subst hd
        rw [Scribe.copyBody, Scribe.bind_ok (Scribe.counted_ok hs), hbody]
        show some (Except.ok body, (d.after _ [.lookedUp i.name]).after _ [.body i.name]) = _
        rw [Desk.after_after]
        rfl
      · cases c <;> rfl
      · rw [← hbody]
        exact hshadowed (hneutral _ List.mem_cons_self)
  · obtain ⟨e, herror⟩ := hcount.error
    have hs := Nat.le_of_not_lt hlimit
    refine .exceeded (c := .includes) hs (fun _ t ht => work_bind_error (herror t ht))
      fun d hd => .of_eq fun _ => ?_
    subst hd
    exact Scribe.bind_error (Scribe.counted_error (herror _ hs))

section Splice

variable {f : Nat → Inclusion → Scribe (List Node)}
  {g : List Registry → Inclusion → Metered (List Node)} {bound : Nat}

mutual

theorem agrees_spliceNode (h : ∀ i t, bound ≤ t.includes →
    Agrees common layers (fun n => f n i) (fun ls => g ls i) t) :
    (node : Node) → (s : Session) → bound ≤ s.includes →
    Agrees common layers (fun n => spliceNode (f n) node)
      (fun ls => spliceNode (g ls) node) s
  | .inclusion i, s, hs => h i s hs
  | .block (.style _ _) body, s, hs =>
    (agrees_spliceNodes h body s hs).bind fun _ _ _ _ => .pure _ _
  | .block (.media _) _, s, _ => .pure _ s
  | .block .fontFace _, s, _ => .pure _ s
  | .block (.keyframes _) _, s, _ => .pure _ s
  | .block (.atRule _ _) _, s, _ => .pure _ s
  | .statement _ _, s, _ => .pure _ s
  | .importRule _, s, _ => .pure _ s
  | .declaration _, s, _ => .pure _ s
  | .assignment _, s, _ => .pure _ s
  | .comment _, s, _ => .pure _ s
  | .mixin _ _ _, s, _ => .pure _ s
  | .branch _ _ _, s, _ => .pure _ s
  | .loop _ _ _ _ _, s, _ => .pure _ s

theorem agrees_spliceNodes (h : ∀ i t, bound ≤ t.includes →
    Agrees common layers (fun n => f n i) (fun ls => g ls i) t) :
    (nodes : List Node) → (s : Session) → bound ≤ s.includes →
    Agrees common layers (fun n => spliceNodes (f n) nodes)
      (fun ls => spliceNodes (g ls) nodes) s
  | [], s, _ => .pure [] s
  | node :: nodes, s, hs =>
    (agrees_spliceNode h node s hs).bind fun _ t _ hst =>
      (agrees_spliceNodes h nodes t (hs.trans hst.includes)).bind fun _ _ _ _ => .pure _ _

end

end Splice

theorem Scribe.expandInclude_succ (layers : List Registry) (scope : Scope) (i : Inclusion)
    (n : Nat) :
    expandInclude layers scope (n + 1) i =
      copyBody layers scope i >>= spliceNodes (expandInclude layers scope n) := rfl

/-- The room for inclusions does not matter as long as it reaches the limit. -/
theorem agrees_expandInclude {n : Nat} (hs : Limit.includes.max ≤ s.includes + n) (i : Inclusion) :
    Agrees common layers (fun n => Scribe.expandInclude layers scope n i)
      (fun ls => expandIncludeIn ls scope n i) s := by
  induction n generalizing i s with
  | zero =>
    obtain ⟨e, herror⟩ := (counts_countInclude i.name).error
    refine .step (.exceeded (c := .includes) hs (fun _ t ht => work_bind_error (herror t ht))
      fun d hd => .of_eq fun _ => ?_) (Scribe.expandInclude_succ layers scope i)
    subst hd
    exact Scribe.bind_error (Scribe.bind_error (Scribe.counted_error (herror _ hs)))
  | succ n ih =>
    refine .step ?_ (Scribe.expandInclude_succ layers scope i)
    simp only [expandIncludeIn_succ]
    refine (agrees_copyBody i).bind fun body t ht _ => ?_
    obtain ⟨-, rfl⟩ := inclusionBody_ok ht
    -- The body is expanded with less room, but from a session that has counted one more.
    have hrest : ∀ i t, s.includes + 1 ≤ t.includes → Agrees common layers
        (fun n => Scribe.expandInclude layers scope n i)
        (fun ls => expandIncludeIn ls scope n i) t :=
      fun i t ht => ih (by omega) i
    exact agrees_spliceNodes hrest body _ (le_refl _)

/-- An inclusion that is expanded was counted within the limit. -/
theorem expandInclude_ok {i : Inclusion} {body : List Node}
    (h : expandInclude layers scope i s = (.ok body, t)) :
    s.includes < Limit.includes.max ∧ s.includes < t.includes := by
  have hsplit : expandInclude layers scope i =
      inclusionBody layers scope i >>= spliceNodes (expandIncludeIn layers scope 999) :=
    expandIncludeIn_succ layers scope 999 i
  rw [hsplit] at h
  cases hbody : inclusionBody layers scope i s with
  | mk o u =>
    cases o with
    | error e =>
      rw [work_bind_error hbody] at h
      cases h
    | ok copy =>
      obtain ⟨hlimit, rfl⟩ := inclusionBody_ok hbody
      have hexpand : ∀ i t, s.includes + 1 ≤ t.includes → Agrees .all layers
          (fun n => Scribe.expandInclude layers scope n i)
          (fun ls => expandIncludeIn ls scope 999 i) t := by
        intro i t ht
        refine agrees_expandInclude ?_ i
        show 1000 ≤ _
        omega
      rw [work_bind_ok hbody] at h
      have hbelow := (agrees_spliceNodes hexpand copy _ (le_refl _)).below h
      exact ⟨hlimit, hbelow.includes⟩

end Inclusions

/-! ## Items of a block -/

section Items

variable {common : Common} {layers : List Registry} {functions : FunctionTable} {scope : Scope}
  {s : Session}

theorem reduces_chooseBranch (env : Environment) (condition : Value) (k : Nat) :
    Reduces (fun n => Scribe.chooseBranch env n scope condition)
      (env.chooseBranch scope condition) k :=
  (reduces_evaluate (evaluationDepth_le_levels k) condition).bind fun _ => .pure _ _

theorem reduces_evaluateNumber (env : Environment) (v : Value) (k : Nat) :
    Reduces (fun n => Scribe.evaluateNumber env n scope v)
      (evaluateNumber env.functions scope v) k :=
  (reduces_evaluate (evaluationDepth_le_levels k) v).bind fun _ => .ofExcept _ _

theorem reduces_loopRange (env : Environment) (first last : Value) (inclusive : Bool) (k : Nat) :
    Reduces (fun n => Scribe.loopRange env n scope first last inclusive)
      (env.loopRange scope first last inclusive) k := by
  refine (reduces_evaluateNumber env first k).bind fun x => ?_
  refine (reduces_evaluateNumber env last k).bind fun y => ?_
  rcases loopBounds (Binary.truncate x) (Binary.truncate y) inclusive with e | _ | ⟨i, j⟩
  · exact .throw e k
  · exact .pure _ k
  · exact .pure _ k

theorem reduces_mapValuesM {f : Nat → Value → Scribe Value} {g : Value → Metered Value} {k : Nat}
    (h : ∀ v, Reduces (fun n => f n v) (g v) k) (selector : Selector) :
    Reduces (fun n => selector.mapValuesM (f n)) (selector.mapValuesM g) k := by
  refine Reduces.bind (Reduces.congruence.mapM fun alt _ =>
    Reduces.congruence.mapM fun piece _ => ?_) fun _ => .pure _ _
  cases piece with
  | value v => exact (h v).bind fun _ => .pure _ _
  | word _ => exact .pure _ _
  | space => exact .pure _ _
  | parent => exact .pure _ _

theorem reduces_resolveHead (env : Environment) (head : Head) (k : Nat) :
    Reduces (fun n => Scribe.resolveHead env n scope head) (env.resolveHead scope head) k := by
  cases head with
  | style selector depth =>
    have hvalue : ∀ v, Reduces (fun n => Scribe.resolve env.functions scope n v)
        (resolve env.functions scope v) k := reduces_resolve (evaluationDepth_le_levels k)
    exact (reduces_mapValuesM hvalue selector).bind fun _ => .pure _ _
  | media _ => exact .pure _ _
  | fontFace => exact .pure _ _
  | keyframes _ => exact .pure _ _
  | atRule _ _ => exact .pure _ _

theorem agrees_runLoop {f : Nat → Scope → Scribe (List Node × Scope)}
    {g : List Registry → Scope → Metered (List Node × Scope)} {bound : Nat}
    (h : ∀ scope t, bound ≤ t.includes →
      Agrees common layers (fun n => f n scope) (fun ls => g ls scope) t)
    (counter : String) (range : List Int) (hs : bound ≤ s.includes) :
    Agrees common layers (fun n => Environment.runLoop (f n) counter scope range)
      (fun ls => Environment.runLoop (g ls) counter scope range) s := by
  refine Agrees.bind (Agrees.foldlM (fun acc i t ht => ?_) range _ hs) fun _ _ _ _ => .pure _ _
  exact (h _ t ht).bind fun _ _ _ _ => .pure _ _

section Enter

variable {f : Nat → List Node → Scope → Scribe (List Node × Scope)}
  {g : List Registry → Environment.Run} {bound : Nat}

mutual

theorem agrees_evalNodeBy
    (h : ∀ body scope t, bound < t.includes → bound < Limit.includes.max →
      Agrees common layers (fun n => f n body scope) (fun ls => g ls body scope) t) :
    (node : Node) → (scope : Scope) → (s : Session) → bound ≤ s.includes →
    Agrees common layers (fun n => Scribe.evalNodeBy ⟨functions, layers⟩ n (f n) node scope)
      (fun ls => Environment.evalNodeBy ⟨functions, ls⟩ (g ls) node scope) s
  | .declaration d, scope, s, _ => by
    simp only [Scribe.evalNodeBy, Environment.evalNodeBy]
    refine (agrees_counted counts_countNode rfl).bind fun _ t _ _ => ?_
    exact (reduces_resolve (evaluationDepth_le_levels _) d.value).agrees.bind
      fun _ _ _ _ => .pure _ _
  | .assignment a, scope, s, _ => by
    simp only [Scribe.evalNodeBy, Environment.evalNodeBy]
    exact .pure _ _
  | .branch condition body otherwise, scope, s, hs => by
    simp only [Scribe.evalNodeBy, Environment.evalNodeBy]
    refine Agrees.bind (reduces_chooseBranch ⟨functions, layers⟩ condition _).agrees
      fun chosen t _ hst => ?_
    cases chosen with
    | true => exact agrees_evalNodesBy h body scope t (hs.trans hst.includes)
    | false => exact agrees_evalNodesBy h otherwise scope t (hs.trans hst.includes)
  | .loop counter first last inclusive body, scope, s, hs => by
    simp only [Scribe.evalNodeBy, Environment.evalNodeBy]
    refine Agrees.bind (reduces_loopRange ⟨functions, layers⟩ first last inclusive _).agrees
      fun range t _ hst => ?_
    refine Agrees.bind (agrees_runLoop (fun scope t ht => agrees_evalNodesBy h body scope t ht)
      counter range (hs.trans hst.includes)) fun _ _ _ _ => .pure _ _
  | .inclusion i, scope, s, hs => by
    simp only [Scribe.evalNodeBy, Environment.evalNodeBy]
    refine Agrees.bind (agrees_expandInclude (by omega) i) fun body t ht _ => ?_
    obtain ⟨hlimit, hst⟩ := expandInclude_ok ht
    exact h body scope t (by omega) (by omega)
  | .block head body, scope, s, hs => by
    simp only [Scribe.evalNodeBy, Environment.evalNodeBy]
    refine Agrees.bind (reduces_resolveHead ⟨functions, layers⟩ head _).agrees
      fun head t _ hst => ?_
    exact (agrees_evalNodesBy h body scope.child t (hs.trans hst.includes)).bind
      fun _ _ _ _ => .pure _ _
  | .statement _ _, scope, s, _ => by
    simp only [Scribe.evalNodeBy, Environment.evalNodeBy]
    exact .pure _ _
  | .importRule _, scope, s, _ => by
    simp only [Scribe.evalNodeBy, Environment.evalNodeBy]
    exact .pure _ _
  | .comment _, scope, s, _ => by
    simp only [Scribe.evalNodeBy, Environment.evalNodeBy]
    exact .pure _ _
  | .mixin _ _ _, scope, s, _ => by
    simp only [Scribe.evalNodeBy, Environment.evalNodeBy]
    exact .pure _ _

theorem agrees_evalNodesBy
    (h : ∀ body scope t, bound < t.includes → bound < Limit.includes.max →
      Agrees common layers (fun n => f n body scope) (fun ls => g ls body scope) t) :
    (nodes : List Node) → (scope : Scope) → (s : Session) → bound ≤ s.includes →
    Agrees common layers (fun n => Scribe.evalNodesBy ⟨functions, layers⟩ n (f n) nodes scope)
      (fun ls => Environment.evalNodesBy ⟨functions, ls⟩ (g ls) nodes scope) s
  | [], scope, s, _ => by
    simp only [Scribe.evalNodesBy, Environment.evalNodesBy]
    exact .pure _ _
  | node :: nodes, scope, s, hs => by
    simp only [Scribe.evalNodesBy, Environment.evalNodesBy]
    refine (agrees_evalNodeBy h node scope s hs).bind fun r t _ hst => ?_
    exact (agrees_evalNodesBy h nodes r.2 t (hs.trans hst.includes)).bind fun _ _ _ _ => .pure _ _

end

end Enter

/-- The room for inclusions inside of one another does not matter as long as it reaches the
limit. -/
theorem agrees_evalNodesIn {n : Nat} (hs : Limit.includes.max ≤ s.includes + n)
    (nodes : List Node) (scope : Scope) :
    Agrees common layers (fun n => Scribe.evalNodes ⟨functions, layers⟩ n nodes scope)
      (fun ls => Environment.evalNodesIn ⟨functions, ls⟩ n nodes scope) s := by
  induction n generalizing nodes scope s with
  | zero =>
    have hnone : ∀ body scope t, Limit.includes.max < t.includes →
        Limit.includes.max < Limit.includes.max → Agrees common layers
          (fun n => Scribe.evalNodes ⟨functions, layers⟩ n body scope)
          (fun _ => throw (.limitExceeded .includes "")) t :=
      fun _ _ _ _ hlimit => (lt_irrefl _ hlimit).elim
    exact .step (agrees_evalNodesBy hnone nodes scope s hs) fun _ => rfl
  | succ n ih =>
    have henter : ∀ body scope t, s.includes < t.includes → s.includes < Limit.includes.max →
        Agrees common layers (fun n => Scribe.evalNodes ⟨functions, layers⟩ n body scope)
          (fun ls => Environment.evalNodesIn ⟨functions, ls⟩ n body scope) t :=
      fun body scope t ht _ => ih (by omega) body scope
    exact .step (agrees_evalNodesBy henter nodes scope s (le_refl _)) fun _ => rfl

theorem agrees_evalNodes (nodes : List Node) (scope : Scope) :
    Agrees common layers (fun n => Scribe.evalNodes ⟨functions, layers⟩ n nodes scope)
      (fun ls => Environment.evalNodes ⟨functions, ls⟩ nodes scope) s := by
  simp only [Environment.evalNodes]
  exact agrees_evalNodesIn (Nat.le_add_left _ _) nodes scope

end Items

end Stylesheet
