import Stylesheet.Proofs.Mixin.Hiding

/-!
# Parameters that the body of a mixin binds again

The parameters of a mixin are replaced throughout its body before any of it runs. So a variable of
the body that is a parameter stands for the argument wherever it stands, and the body may bind the
name again, by an assignment or as the counter of a loop, without anything in it seeing that.

* `Paired`, `Together`: work that fails alike, or has results that are related.
* `together_expandIncludeIn`: inclusions are expanded to nodes that are alike.
* `together_evalNodesIn`: nodes that are alike are evaluated to the same.
* `Mixin.rebind`: a mixin whose body binds another name.
* `rebinding_is_inert`: it is evaluated to the same.
* `parameter_is_not_shadowed`: a parameter that is bound again by both means.
-/

namespace Stylesheet

/-! ## Work in pairs -/

/-- Both fail with the same error, or both succeed with results that are related. -/
inductive Paired {α β : Type} (R : α → β → Prop) :
    Except CompileError α → Except CompileError β → Prop
  | error (e : CompileError) : Paired R (.error e) (.error e)
  | ok {a : α} {b : β} : R a b → Paired R (.ok a) (.ok b)

theorem Paired.map {α β γ δ : Type} {R : α → β → Prop} {S : γ → δ → Prop}
    {o : Except CompileError α} {o' : Except CompileError β} {f : α → γ} {g : β → δ}
    (h : Paired R o o') (hfg : ∀ a b, R a b → S (f a) (g b)) : Paired S (o.map f) (o'.map g) := by
  cases h with
  | error e => exact .error e
  | ok hab => exact .ok (hfg _ _ hab)

/-- From any session, both come to outcomes that are paired, and to the same session. -/
def Together {α β : Type} (R : α → β → Prop) (f : Metered α) (g : Metered β) : Prop :=
  ∀ s, Paired R (f s).1 (g s).1 ∧ (f s).2 = (g s).2

namespace Together

variable {α β γ δ : Type} {R : α → β → Prop} {S : γ → δ → Prop} {f : Metered α} {g : Metered β}

theorem pure {a : α} {b : β} (h : R a b) : Together R (Pure.pure a) (Pure.pure b) :=
  fun _ => ⟨.ok h, rfl⟩

theorem throw (e : CompileError) : Together R (MonadExcept.throw e) (MonadExcept.throw e) :=
  fun _ => ⟨.error e, rfl⟩

theorem refl (f : Metered α) : Together Eq f f := by
  intro s
  refine ⟨?_, rfl⟩
  cases (f s).1 with
  | error e => exact .error e
  | ok a => exact .ok rfl

theorem ofExcept {o : Except CompileError α} {o' : Except CompileError β} (h : Paired R o o') :
    Together R (Metered.ofExcept o) (Metered.ofExcept o') := by
  cases h with
  | error e => exact .throw e
  | ok h => exact .pure h

theorem bind {next : α → Metered γ} {next' : β → Metered δ} (h : Together R f g)
    (hnext : ∀ a b, R a b → Together S (next a) (next' b)) :
    Together S (f >>= next) (g >>= next') := by
  intro s
  obtain ⟨hpair, hs⟩ := h s
  rcases hf : f s with ⟨o, t⟩
  rcases hg : g s with ⟨o', t'⟩
  rw [hf, hg] at hpair hs
  dsimp only at hpair hs
  subst hs
  cases hpair with
  | error e =>
    rw [work_bind_error hf, work_bind_error hg]
    exact ⟨.error e, rfl⟩
  | ok hab =>
    rw [work_bind_ok hf, work_bind_ok hg]
    exact hnext _ _ hab t

/-- Work that is the same up to here. -/
theorem bind_eq {f g : Metered α} {next : α → Metered γ} {next' : α → Metered δ} (h : f = g)
    (hnext : ∀ a, Together S (next a) (next' a)) : Together S (f >>= next) (g >>= next') := by
  subst h
  refine (refl f).bind fun a b hab => ?_
  subst hab
  exact hnext a

theorem foldlM {ε : Type} {f : α → ε → Metered α} {g : β → ε → Metered β}
    (h : ∀ a b k, R a b → Together R (f a k) (g b k)) (items : List ε) {a : α} {b : β}
    (hab : R a b) : Together R (items.foldlM f a) (items.foldlM g b) := by
  induction items generalizing a b with
  | nil => exact .pure hab
  | cons k items ih =>
    rw [List.foldlM_cons, List.foldlM_cons]
    exact (h a b k hab).bind fun _ _ hab => ih hab

end Together

/-! ## Parameters -/

/-- A default refers to one of the names only if it is a parameter before it. -/
def DefaultsAvoid : List String → List Parameter → Prop
  | _, [] => True
  | names, param :: params =>
    (∀ v ∈ param.default, v.Avoids names) ∧ DefaultsAvoid (names.filter (· ≠ param.name)) params

/-- Those of the names that are no parameters. -/
def unbound (names : List String) (params : List Parameter) : List String :=
  names.filter fun x => x ∉ params.map (·.name)

namespace Mixin

/-- The mixin refers to the names only as its parameters. -/
structure Avoids (names : List String) (m : Mixin) : Prop where
  defaults : DefaultsAvoid names m.params
  body : Node.AllEach (Value.Avoids (unbound names m.params)) m.body

/-- The same for two mixins that differ only in what they bind the names to. -/
structure Alike (names : List String) (m m' : Mixin) : Prop where
  params_eq : m'.params = m.params
  defaults : DefaultsAvoid names m.params
  body : Node.AllAlike names (Value.Avoids (unbound names m.params)) m.body m'.body

/-- The mixin with the name `c` in place of `p` where its body binds it. -/
def rebind (m : Mixin) (p c : String) : Mixin :=
  { m with body := Node.rebindAll (fun x => if x = p then c else x) m.body }

theorem Avoids.alike_self {names : List String} {m : Mixin} (h : m.Avoids names) :
    m.Alike names m :=
  ⟨rfl, h.defaults, Node.allAlike_self h.body⟩

theorem Avoids.alike_rebind {p c : String} {m : Mixin} (h : m.Avoids [p, c]) :
    m.Alike [p, c] (m.rebind p c) := by
  refine ⟨rfl, h.defaults, Node.alike_rebindAll ⟨fun x hx => ?_, fun x hx => ?_⟩ m.body h.body⟩
  · split <;> simp_all
  · rw [if_neg]
    rintro rfl
    exact hx List.mem_cons_self

end Mixin

section Parameters

variable {names free : List String} {a b c d : Scope} {params : List Parameter} {args : List Value}

theorem unbound_cons (free : List String) (param : Parameter) (params : List Parameter) :
    unbound free (param :: params) = unbound (free.filter (· ≠ param.name)) params := by
  unfold unbound
  rw [List.filter_filter]
  refine List.filter_congr fun x _ => ?_
  simp [Bool.and_comm]

/-- Parameters with the same values on both sides, none of which refers to one of the names; those
of the names that are not free any more have values. -/
structure Supplied (names free : List String) (c d : Scope) : Prop where
  locals_eq : d.locals = c.locals
  avoids : ∀ x v, c.locals.get? x = some v → v.Avoids names
  isSome : ∀ x ∈ names, x ∉ free → (c.locals.get? x).isSome

/-- Such parameters while more of them are bound. -/
structure Binding (names free : List String) (c d : Scope) : Prop extends
    Supplied names free c d where
  outer : List.Forall₂ (Frame.Agrees names) c.outer d.outer
  hasNoAlias : c.HasNoAlias

theorem Binding.start (h : Scope.Agrees names a b) : Binding names names a.child b.child where
  locals_eq := rfl
  avoids x v hv := by
    rw [Scope.get?_child] at hv
    cases hv
  isSome x hx hfree := absurd hx hfree
  outer := h
  hasNoAlias := a.hasNoAlias_child

theorem Binding.set (h : Binding names free c d) (x : String) {v : Value} (hv : v.Avoids names)
    (halias : ∀ target, v ≠ .reference target) :
    Binding names (free.filter (· ≠ x)) (c.set x v) (d.set x v) where
  locals_eq := by rw [Scope.set, Scope.set, h.locals_eq]
  avoids y w hw := by
    obtain ⟨-, rfl⟩ | ⟨-, hw⟩ := Table.of_get?_insert hw
    · exact hv
    · exact h.avoids y w hw
  isSome y hy hfree := by
    by_cases hyx : y = x
    · rw [hyx, Scope.set, Table.get?_insert_self]
      rfl
    · rw [Scope.set, Table.get?_insert_of_ne _ hyx]
      exact h.isSome y hy fun hmem => hfree (List.mem_filter.2 ⟨hmem, by simpa using hyx⟩)
  outer := h.outer
  hasNoAlias := h.hasNoAlias.set halias

theorem Binding.resolve_eq (h : Binding names free c d) {x : String} (hx : x ∉ free) :
    c.resolve x = d.resolve x ∧ ∀ v, c.resolve x = .ok v → v.Avoids names := by
  cases hget : c.locals.get? x with
  | some v =>
    have hv := h.hasNoAlias x v hget
    have hget' : d.locals.get? x = some v := by rw [h.locals_eq, hget]
    rw [Scope.resolve_of_bound hget hv, Scope.resolve_of_bound hget' hv]
    refine ⟨rfl, fun w hw => ?_⟩
    cases hw
    exact h.avoids x v hget
  | none =>
    -- A name that is not free any more would be bound here.
    have hname : x ∉ names := fun hname => by
      simpa [hget] using h.isSome x hname hx
    have hget' : d.locals.get? x = none := by rw [h.locals_eq, hget]
    rw [Scope.resolve_of_unbound hget, Scope.resolve_of_unbound hget']
    exact Scope.Agrees.resolveIn_eq h.outer hname _

theorem Binding.parameterValue_eq (h : Binding names free c d) (hscope : Scope.Agrees names a b)
    {param : Parameter} {arg : Option Value} (harg : ∀ v ∈ arg, v.Avoids names)
    (hdefault : ∀ v ∈ param.default, v.Avoids free) :
    parameterValue a c param arg = parameterValue b d param arg ∧
      ∀ v, parameterValue a c param arg = .ok v → v.Avoids names := by
  unfold parameterValue
  cases arg with
  | some arg =>
    have harg := harg arg rfl
    refine ⟨Value.resolveReferences_congr arg fun x hx => hscope.resolve_eq (harg x hx), ?_⟩
    intro v hv
    exact Value.avoids_resolveReferences hv fun x hx u hu => hscope.resolve_avoids (harg x hx) hu
  | none =>
    dsimp only
    cases hparam : param.default with
    | some default =>
      have hfree := hdefault default hparam
      refine ⟨Value.resolveReferences_congr default fun x hx => (h.resolve_eq (hfree x hx)).1, ?_⟩
      intro v hv
      exact Value.avoids_resolveReferences hv fun x hx => (h.resolve_eq (hfree x hx)).2
    | none =>
      refine ⟨rfl, fun v hv => ?_⟩
      cases hv
      exact (Value.IsAtom.undefined _).avoids

theorem paired_bindParameters (h : Binding names free c d) (hscope : Scope.Agrees names a b)
    (hargs : ∀ v ∈ args, v.Avoids names) (hdefaults : DefaultsAvoid free params) :
    Paired (Supplied names (unbound free params)) (bindParameters a params args c)
      (bindParameters b params args d) := by
  induction params generalizing free args c d with
  | nil =>
    rw [bindParameters, bindParameters]
    have hfree : unbound free [] = free := by simp [unbound]
    rw [hfree]
    exact .ok h.toSupplied
  | cons param params ih =>
    have hhead : ∀ v ∈ args.head?, v.Avoids names := fun v hv =>
      hargs v (List.mem_of_mem_head? hv)
    obtain ⟨hvalue, havoids⟩ := h.parameterValue_eq hscope hhead hdefaults.1
    rw [bindParameters_cons, bindParameters_cons, ← hvalue, unbound_cons]
    cases hv : parameterValue a c param args.head? with
    | error e => exact .error e
    | ok v =>
      refine ih (h.set param.name (havoids v hv) (parameterValue_ne_reference hv)) ?_ hdefaults.2
      exact fun w hw => hargs w (List.mem_of_mem_tail hw)

theorem avoids_positional {args : Option Value} (h : ∀ v ∈ args, v.Avoids names) :
    ∀ v ∈ positional args, v.Avoids names := by
  unfold positional
  split
  · simp
  · exact Value.avoids_allReferences (h _ rfl)
  · simpa using h

theorem Supplied.allAlike {m m' : Mixin} (h : Supplied names (unbound names m.params) c d)
    (hm : m.Alike names m') :
    Node.AllAlike names (Value.Avoids names) (m.instantiate c) (m'.instantiate d) := by
  unfold Mixin.instantiate
  rw [h.locals_eq]
  refine Node.AllAlike.mapAllValues (fun v hv => Value.avoids_substitute fun x hx => ?_) hm.body
  rw [Value.substitute_reference]
  cases hget : c.locals.get? x with
  | some w => exact h.avoids x w hget
  | none =>
    have hname : x ∉ names := fun hname => by
      simpa [hget] using h.isSome x hname (hv x hx)
    simpa [Value.Avoids, Value.references] using hname

end Parameters

/-! ## Expansion -/

section Expansion

variable {names : List String} {a b : Scope} {layers layers' : List Registry}

/-- Under every name there are mixins on both sides that are alike, or on neither. -/
def LayersAlike (names : List String) (layers layers' : List Registry) : Prop :=
  ∀ name, Option.Rel (Mixin.Alike names) (Registry.find? layers name) (Registry.find? layers' name)

theorem paired_mixinBody (hlayers : LayersAlike names layers layers') (h : Scope.Agrees names a b)
    {i : Inclusion} (hargs : ∀ v ∈ i.args, v.Avoids names) :
    Paired (Node.AllAlike names (Value.Avoids names)) (mixinBody layers a i)
      (mixinBody layers' b i) := by
  have hfound := hlayers i.name
  unfold mixinBody
  generalize Registry.find? layers i.name = found at hfound ⊢
  generalize Registry.find? layers' i.name = found' at hfound ⊢
  cases hfound with
  | none => exact .error _
  | @some m m' hm =>
    have hbind := paired_bindParameters (Binding.start h) h (avoids_positional hargs) hm.defaults
    dsimp only
    rw [Mixin.bind, Mixin.bind, hm.params_eq]
    exact hbind.map fun _ _ hsupplied => hsupplied.allAlike hm

/-- The expansions of an inclusion without the names are alike. -/
def ExpandsAlike (names : List String) (expand expand' : Inclusion → Metered (List Node)) : Prop :=
  ∀ i : Inclusion, (∀ v ∈ i.args, v.Avoids names) →
    Together (Node.AllAlike names (Value.Avoids names)) (expand i) (expand' i)

section Splice

variable {expand expand' : Inclusion → Metered (List Node)}

mutual

theorem together_spliceNode (hexpand : ExpandsAlike names expand expand') {node node' : Node} :
    Node.Alike names (Value.Avoids names) node node' →
    Together (Node.AllAlike names (Value.Avoids names)) (spliceNode expand node)
      (spliceNode expand' node')
  | .inclusion i hi => hexpand i hi
  | .block (.style _ _) hhead hbody => by
    rw [spliceNode, spliceNode]
    exact (together_spliceNodes hexpand hbody).bind fun _ _ hbody =>
      .pure (.cons (.block _ hhead hbody) .nil)
  | .block (.media _) hhead hbody => .pure (.cons (.block _ hhead hbody) .nil)
  | .block .fontFace hhead hbody => .pure (.cons (.block _ hhead hbody) .nil)
  | .block (.keyframes _) hhead hbody => .pure (.cons (.block _ hhead hbody) .nil)
  | .block (.atRule _ _) hhead hbody => .pure (.cons (.block _ hhead hbody) .nil)
  | .declaration d h => .pure (.cons (.declaration d h) .nil)
  | .assignment a hname h => .pure (.cons (.assignment a hname h) .nil)
  | .rebinding ha hb => .pure (.cons (.rebinding ha hb) .nil)
  | .branch hcondition hbody hotherwise => .pure (.cons (.branch hcondition hbody hotherwise) .nil)
  | .loop inclusive hcounter hfirst hlast hbody =>
    .pure (.cons (.loop inclusive hcounter hfirst hlast hbody) .nil)
  | .statement name prelude => .pure (.cons (.statement name prelude) .nil)
  | .importRule url => .pure (.cons (.importRule url) .nil)
  | .comment text => .pure (.cons (.comment text) .nil)
  | .mixin name params body => .pure (.cons (.mixin name params body) .nil)

theorem together_spliceNodes (hexpand : ExpandsAlike names expand expand')
    {nodes nodes' : List Node} : Node.AllAlike names (Value.Avoids names) nodes nodes' →
    Together (Node.AllAlike names (Value.Avoids names)) (spliceNodes expand nodes)
      (spliceNodes expand' nodes')
  | .nil => .pure .nil
  | .cons h hs => by
    rw [spliceNodes, spliceNodes]
    refine (together_spliceNode hexpand h).bind fun first first' hfirst => ?_
    exact (together_spliceNodes hexpand hs).bind fun _ _ hrest => .pure (.append hrest hfirst)

end

end Splice

/-- One inclusion, if those inside of it are expanded alike. -/
theorem together_expandIncludeIn_succ {i : Inclusion} {n : Nat}
    (hbody : Paired (Node.AllAlike names (Value.Avoids names)) (mixinBody layers a i)
      (mixinBody layers' b i))
    (hexpand : ExpandsAlike names (expandIncludeIn layers a n) (expandIncludeIn layers' b n)) :
    Together (Node.AllAlike names (Value.Avoids names)) (expandIncludeIn layers a (n + 1) i)
      (expandIncludeIn layers' b (n + 1) i) := by
  have hcopy : Together (Node.AllAlike names (Value.Avoids names)) (inclusionBody layers a i)
      (inclusionBody layers' b i) :=
    .bind_eq rfl fun _ => .ofExcept hbody
  rw [expandIncludeIn_succ, expandIncludeIn_succ]
  exact hcopy.bind fun _ _ hbody => together_spliceNodes hexpand hbody

theorem together_expandIncludeIn (hlayers : LayersAlike names layers layers')
    (h : Scope.Agrees names a b) (n : Nat) :
    ExpandsAlike names (expandIncludeIn layers a n) (expandIncludeIn layers' b n) := by
  induction n with
  | zero =>
    intro i _
    rw [expandIncludeIn, expandIncludeIn]
    exact .bind_eq rfl fun _ => .throw _
  | succ n ih => exact fun i hi => together_expandIncludeIn_succ (paired_mixinBody hlayers h hi) ih

end Expansion

/-! ## Evaluation -/

/-- The same nodes, and scopes that agree. -/
def SameNodes (names : List String) (r r' : List Node × Scope) : Prop :=
  r.1 = r'.1 ∧ Scope.Agrees names r.2 r'.2

section Evaluation

variable {names : List String} {env env' : Environment} {a b : Scope}

theorem chooseBranch_congr (hfunctions : env'.functions = env.functions)
    (h : Scope.Agrees names a b) {condition : Value} (hv : condition.Avoids names) :
    env.chooseBranch a condition = env'.chooseBranch b condition := by
  unfold Environment.chooseBranch evaluate
  rw [hfunctions, evaluateIn_congr h levels hv]

theorem evaluateNumber_congr {functions : FunctionTable} (h : Scope.Agrees names a b) {v : Value}
    (hv : v.Avoids names) : evaluateNumber functions a v = evaluateNumber functions b v := by
  unfold evaluateNumber evaluate
  rw [evaluateIn_congr h levels hv]

theorem loopRange_congr_of_agrees (hfunctions : env'.functions = env.functions)
    (h : Scope.Agrees names a b) {first last : Value} (hfirst : first.Avoids names)
    (hlast : last.Avoids names) (inclusive : Bool) :
    env.loopRange a first last inclusive = env'.loopRange b first last inclusive := by
  unfold Environment.loopRange
  rw [hfunctions, evaluateNumber_congr h hfirst, evaluateNumber_congr h hlast]

theorem mapValuesM_congr {f g : Value → Metered Value} {s : Selector} {P : Value → Prop}
    (h : ∀ alt ∈ s.alternatives, ∀ v, .value v ∈ alt → P v) (hfg : ∀ v, P v → f v = g v) :
    s.mapValuesM f = s.mapValuesM g := by
  unfold Selector.mapValuesM
  refine congrArg (· >>= _) (congruence_eq.mapM (f := fun _ => _) fun alt halt =>
    congruence_eq.mapM (f := fun _ => _) ?_)
  intro piece hpiece
  cases piece with
  | value v =>
    dsimp only
    rw [hfg v (h alt halt v hpiece)]
  | word text => rfl
  | space => rfl
  | parent => rfl

theorem resolveHead_congr (hfunctions : env'.functions = env.functions)
    (h : Scope.Agrees names a b) {head : Head} (hhead : head.IsEvaluated (Value.Avoids names)) :
    env.resolveHead a head = env'.resolveHead b head := by
  cases head with
  | style selector depth =>
    have hvalues : selector.mapValuesM (resolve env.functions a) =
        selector.mapValuesM (resolve env.functions b) :=
      mapValuesM_congr hhead fun v hv => resolveIn_congr h levels hv
    rw [Environment.resolveHead, Environment.resolveHead, hfunctions, hvalues]
  | _ => rfl

theorem together_runLoop {run run' : Scope → Metered (List Node × Scope)}
    (hrun : ∀ a b, Scope.Agrees names a b → Together (SameNodes names) (run a) (run' b))
    (h : Scope.Agrees names a b) {counter counter' : String}
    (hcounter : counter' = counter ∨ counter ∈ names ∧ counter' ∈ names) (range : List Int) :
    Together Eq (Environment.runLoop run counter a range)
      (Environment.runLoop run' counter' b range) := by
  have hset {a b : Scope} (h : Scope.Agrees names a b) (k : Int) :
      Scope.Agrees names (a.set counter (.number (Binary.ofInt k)))
        (b.set counter' (.number (Binary.ofInt k))) := by
    obtain rfl | ⟨hleft, hright⟩ := hcounter
    · exact h.set _ (Value.IsAtom.quantity _).avoids
    · exact (h.set_left hleft _).set_right hright _
  -- The rounds that are done left the same nodes, and scopes that agree.
  refine Together.bind (R := fun r r' : List (List Node) × Scope =>
    r.1 = r'.1 ∧ Scope.Agrees names r.2 r'.2) (.foldlM ?_ range ⟨rfl, h.child⟩) ?_
  · intro r r' k hr
    refine (hrun _ _ (hset hr.2 k)).bind fun round round' hround => .pure ?_
    exact ⟨by rw [hr.1, hround.1], hround.2⟩
  · intro r r' hr
    exact .pure (by rw [hr.1])

variable {enter enter' : Environment.Run}

/-- Bodies that are alike are run alike in scopes that agree. -/
def RunsAlike (names : List String) (run run' : Environment.Run) : Prop :=
  ∀ nodes nodes', Node.AllAlike names (Value.Avoids names) nodes nodes' → ∀ a b,
    Scope.Agrees names a b → Together (SameNodes names) (run nodes a) (run' nodes' b)

mutual

theorem together_evalNodeBy (hfunctions : env'.functions = env.functions)
    (hlayers : LayersAlike names env.layers env'.layers) (henter : RunsAlike names enter enter')
    {node node' : Node} : Node.Alike names (Value.Avoids names) node node' → (a b : Scope) →
    Scope.Agrees names a b →
    Together (SameNodes names) (env.evalNodeBy enter node a) (env'.evalNodeBy enter' node' b)
  | .declaration d hd, a, b, h => by
    have hvalue : resolve env.functions a d.value = resolve env'.functions b d.value := by
      rw [hfunctions]
      exact resolveIn_congr h levels hd
    rw [Environment.evalNodeBy, Environment.evalNodeBy]
    exact .bind_eq rfl fun _ => .bind_eq hvalue fun _ => .pure ⟨rfl, h⟩
  | .assignment x hname hx, a, b, h => .pure ⟨rfl, h.assign hname hx⟩
  | .rebinding hx hy, a, b, h => .pure ⟨rfl, (h.assign_left hx).assign_right hy⟩
  | .branch hcondition hbody hotherwise, a, b, h => by
    rw [Environment.evalNodeBy, Environment.evalNodeBy]
    refine .bind_eq (chooseBranch_congr hfunctions h hcondition) fun chosen => ?_
    cases chosen with
    | true => exact together_evalNodesBy hfunctions hlayers henter hbody a b h
    | false => exact together_evalNodesBy hfunctions hlayers henter hotherwise a b h
  | .loop inclusive hcounter hfirst hlast hbody, a, b, h => by
    rw [Environment.evalNodeBy, Environment.evalNodeBy]
    refine .bind_eq (loopRange_congr_of_agrees hfunctions h hfirst hlast inclusive) fun range => ?_
    refine (together_runLoop (together_evalNodesBy hfunctions hlayers henter hbody) h hcounter
      range).bind fun nodes nodes' hnodes => .pure ⟨hnodes, h⟩
  | .inclusion i hi, a, b, h => by
    rw [Environment.evalNodeBy, Environment.evalNodeBy]
    exact (together_expandIncludeIn hlayers h _ i hi).bind fun body body' hbody =>
      henter body body' hbody a b h
  | .block head hhead hbody, a, b, h => by
    rw [Environment.evalNodeBy, Environment.evalNodeBy]
    refine .bind_eq (resolveHead_congr hfunctions h hhead) fun head => ?_
    refine (together_evalNodesBy hfunctions hlayers henter hbody _ _ h.child).bind
      fun r r' hr => .pure ⟨?_, h⟩
    rw [hr.1]
  | .statement _ _, _, _, h => .pure ⟨rfl, h⟩
  | .importRule _, _, _, h => .pure ⟨rfl, h⟩
  | .comment _, _, _, h => .pure ⟨rfl, h⟩
  | .mixin _ _ _, _, _, h => .pure ⟨rfl, h⟩

theorem together_evalNodesBy (hfunctions : env'.functions = env.functions)
    (hlayers : LayersAlike names env.layers env'.layers) (henter : RunsAlike names enter enter')
    {nodes nodes' : List Node} : Node.AllAlike names (Value.Avoids names) nodes nodes' →
    (a b : Scope) → Scope.Agrees names a b →
    Together (SameNodes names) (env.evalNodesBy enter nodes a) (env'.evalNodesBy enter' nodes' b)
  | .nil, _, _, h => .pure ⟨rfl, h⟩
  | .cons hnode hnodes, a, b, h => by
    rw [Environment.evalNodesBy, Environment.evalNodesBy]
    refine (together_evalNodeBy hfunctions hlayers henter hnode a b h).bind fun r r' hr => ?_
    refine (together_evalNodesBy hfunctions hlayers henter hnodes _ _ hr.2).bind
      fun t t' ht => .pure ⟨?_, ht.2⟩
    rw [hr.1, ht.1]

end

theorem together_evalNodesIn (hfunctions : env'.functions = env.functions)
    (hlayers : LayersAlike names env.layers env'.layers) (n : Nat) :
    RunsAlike names (env.evalNodesIn n) (env'.evalNodesIn n) := by
  induction n with
  | zero =>
    intro nodes nodes' hnodes
    exact together_evalNodesBy hfunctions hlayers (fun _ _ _ _ _ _ => .throw _) hnodes
  | succ n ih =>
    intro nodes nodes' hnodes
    exact together_evalNodesBy hfunctions hlayers ih hnodes

end Evaluation

/-! ## Parameters that are bound again -/

/-- The environment with a mixin in the place of those of a name. -/
def Environment.withMixin (env : Environment) (name : String) (m : Mixin) : Environment :=
  { env with layers := Registry.replace env.layers name m }

/-- The values of a scope, except those of the names, do not refer to the names. -/
def Scope.Avoids (names : List String) (scope : Scope) : Prop :=
  ∀ frame ∈ scope.frames, ∀ x, x ∉ names → ∀ v, frame.get? x = some v → v.Avoids names

theorem Scope.Avoids.agrees_self {names : List String} {scope : Scope} (h : scope.Avoids names) :
    Scope.Agrees names scope scope :=
  List.forall₂_same.2 fun frame hframe => ⟨fun _ _ => rfl, h frame hframe⟩

theorem layersAlike_rebind {layers : List Registry} {name p c : String} {m : Mixin}
    (hm : Registry.find? layers name = some m)
    (h : ∀ other m, Registry.find? layers other = some m → m.Avoids [p, c]) :
    LayersAlike [p, c] layers (Registry.replace layers name (m.rebind p c)) := by
  intro other
  by_cases hother : other = name
  · rw [hother, hm, Registry.find?_replace_self hm]
    exact .some (h name m hm).alike_rebind
  · rw [Registry.find?_replace_of_ne hother]
    cases hfound : Registry.find? layers other with
    | none => exact .none
    | some m => exact .some (h other m hfound).alike_self

theorem bindParameters_isSome {scope b c : Scope} {params : List Parameter} {args : List Value}
    {x : String} (hx : x ∈ params.map (·.name) ∨ (b.locals.get? x).isSome)
    (h : bindParameters scope params args b = .ok c) : (c.locals.get? x).isSome := by
  induction params generalizing args b with
  | nil =>
    cases h
    exact hx.resolve_left List.not_mem_nil
  | cons param params ih =>
    rw [bindParameters_cons] at h
    obtain ⟨v, -, h⟩ := except_ok_of_bind h
    refine ih ?_ h
    by_cases hname : x = param.name
    · rw [hname, Scope.set, Table.get?_insert_self]
      exact .inr rfl
    · rw [Scope.set, Table.get?_insert_of_ne _ hname]
      rw [List.map_cons, List.mem_cons] at hx
      exact hx.imp_left fun hx => hx.resolve_left hname

theorem supplied_of_bind {names : List String} {m : Mixin} {args : Option Value} {scope b : Scope}
    (h : m.bind args scope = .ok b) (havoids : ∀ x v, b.locals.get? x = some v → v.Avoids names) :
    Supplied names (unbound names m.params) b b where
  locals_eq := rfl
  avoids := havoids
  isSome x hx hfree := by
    refine bindParameters_isSome (.inl ?_) h
    by_contra hparam
    exact hfree (List.mem_filter.2 ⟨hx, by simpa using hparam⟩)

/-- A parameter with an argument stands for the argument throughout the body, if it is the last one
of its name. What the body binds the parameter to is not seen: it could bind any other name in its
place, that nothing refers to either. The inclusion would be expanded to nodes that refer to neither
name and differ in nothing else, and be evaluated to the same nodes, or fail alike. Other mixins may
have a parameter of that name too, but nothing else may refer to it. -/
theorem rebinding_is_inert (env : Environment) (scope : Scope) (i : Inclusion) (m : Mixin)
    (p c : String) (hm : Registry.find? env.layers i.name = some m) :
    (∀ b, m.bind i.args scope = .ok b →
      ∀ (k : Nat) (param : Parameter) (arg : Value), m.params[k]? = some param → param.name = p →
        (∀ later ∈ m.params.drop (k + 1), later.name ≠ p) → (positional i.args)[k]? = some arg →
          arg.resolveReferences scope = .ok ((Value.reference p).substitute b.locals.get?)) ∧
    ((∀ name m, Registry.find? env.layers name = some m → m.Avoids [p, c]) →
      scope.Avoids [p, c] →
      (∀ b, m.bind i.args scope = .ok b → ∀ x v, b.locals.get? x = some v → v.Avoids [p, c]) →
        Together (Node.AllAlike [p, c] (Value.Avoids [p, c])) (expandInclude env.layers scope i)
          (expandInclude (env.withMixin i.name (m.rebind p c)).layers scope i) ∧
        Together (SameNodes [p, c]) (env.evalNodes [.inclusion i] scope)
          ((env.withMixin i.name (m.rebind p c)).evalNodes [.inclusion i] scope)) := by
  refine ⟨fun b hb k param arg hparam hname hlast harg => ?_, fun hlayers hscope hargs => ?_⟩
  · subst hname
    obtain ⟨v, hv, hget⟩ := bindParameters_last_argument hlast hb hparam harg
    rw [Value.substitute_reference, hget]
    exact hv
  have halike : LayersAlike [p, c] env.layers (env.withMixin i.name (m.rebind p c)).layers :=
    layersAlike_rebind hm hlayers
  have hagrees := hscope.agrees_self
  have hexpand : Together (Node.AllAlike [p, c] (Value.Avoids [p, c]))
      (expandInclude env.layers scope i)
      (expandInclude (env.withMixin i.name (m.rebind p c)).layers scope i) := by
    refine together_expandIncludeIn_succ ?_ (together_expandIncludeIn halike hagrees 999)
    -- The arguments may refer to the names: the scope is the same on both sides.
    rw [Environment.withMixin, mixinBody, mixinBody, hm, Registry.find?_replace_self hm]
    show Paired _ ((m.bind i.args scope).map _) ((m.bind i.args scope).map _)
    cases hb : m.bind i.args scope with
    | error e => exact .error e
    | ok b => exact .ok ((supplied_of_bind hb (hargs b hb)).allAlike (hlayers _ m hm).alike_rebind)
  refine ⟨hexpand, ?_⟩
  have hfunctions : (env.withMixin i.name (m.rebind p c)).functions = env.functions := rfl
  have hrun := together_evalNodesIn hfunctions halike 999
  rw [evalNodes_inclusion, evalNodes_inclusion]
  exact hexpand.bind fun body body' hbody => hrun body body' hbody scope scope hagrees

section Example

/-- Assigns its parameter before a nested rule that refers to it. -/
def resetMixin : Mixin :=
  ⟨"reset", [⟨"p", none⟩], [.assignment ⟨"p", .literal "2px", false⟩,
    .block (.style ⟨[[.word "b"]]⟩ 2) [.declaration ⟨"width", .reference "p", default⟩]]⟩

/-- Counts with its parameter in a loop that refers to it. -/
def countMixin : Mixin :=
  ⟨"count", [⟨"p", none⟩], [.loop "p" (.number (Binary.ofInt 1)) (.number (Binary.ofInt 2)) true
    [.declaration ⟨"width", .reference "p", default⟩]]⟩

def rebindingEnvironment : Environment :=
  ⟨.empty, [Registry.register (Registry.register .empty resetMixin) countMixin]⟩

theorem avoids_rebindingEnvironment {name : String} {m : Mixin}
    (h : Registry.find? rebindingEnvironment.layers name = some m) : m.Avoids ["p", "c"] := by
  have hreset : resetMixin.Avoids ["p", "c"] := by
    refine ⟨by simp [resetMixin, DefaultsAvoid], ?_⟩
    simp [resetMixin, Node.AllEach, Node.Each, Head.IsEvaluated, Value.Avoids, Value.references,
      unbound]
  have hcount : countMixin.Avoids ["p", "c"] := by
    refine ⟨by simp [countMixin, DefaultsAvoid], ?_⟩
    simp [countMixin, Node.AllEach, Node.Each, Value.Avoids, Value.references, Value.number,
      unbound]
  have hget : ((Registry.register (Registry.register .empty resetMixin) countMixin).get? name) =
      some m := by
    simpa [Registry.find?, rebindingEnvironment] using h
  obtain ⟨-, rfl⟩ | ⟨-, hget⟩ := Table.of_get?_insert hget
  · exact hcount
  obtain ⟨-, rfl⟩ | ⟨-, hget⟩ := Table.of_get?_insert hget
  · exact hreset
  · rw [Table.get?_empty] at hget
    cases hget

/-- The argument is a variable of the same name as the parameter. -/
theorem rebinding_is_inert_reset :
    Registry.find? rebindingEnvironment.layers "reset" = some resetMixin ∧
    Together (SameNodes ["p", "c"])
      (rebindingEnvironment.evalNodes [.inclusion ⟨"reset", some (.reference "p"), default⟩]
        (Scope.set {} "p" (.literal "9px")))
      ((rebindingEnvironment.withMixin "reset" (resetMixin.rebind "p" "c")).evalNodes
        [.inclusion ⟨"reset", some (.reference "p"), default⟩]
        (Scope.set {} "p" (.literal "9px"))) := by
  refine ⟨rfl, (rebinding_is_inert rebindingEnvironment _ ⟨"reset", some (.reference "p"), default⟩
    resetMixin "p" "c" rfl).2 (fun _ _ => avoids_rebindingEnvironment) ?_ ?_ |>.2⟩
  · intro frame hframe x hx v hv
    rw [List.mem_singleton.1 hframe] at hv
    obtain ⟨rfl, -⟩ | ⟨-, hv⟩ := Table.of_get?_insert hv
    · exact absurd List.mem_cons_self hx
    · rw [Table.get?_empty] at hv
      cases hv
  · intro b hb x v hv
    have hbound : b = (Scope.set {} "p" (.literal "9px")).child.set "p" (.literal "9px") :=
      (Except.ok.inj hb).symm
    rw [hbound] at hv
    obtain ⟨-, rfl⟩ | ⟨-, hv⟩ := Table.of_get?_insert hv
    · exact (Value.IsAtom.literal _).avoids
    · rw [Scope.get?_child] at hv
      cases hv

theorem parameter_is_not_shadowed :
    (rebindingEnvironment.evalNodes [.inclusion ⟨"reset", some (.literal "9px"), default⟩]
      {} {}).1.map Prod.fst =
      .ok [.block (.style ⟨[[.word "b"]]⟩ 2) [.declaration ⟨"width", .literal "9px", default⟩]] ∧
    (rebindingEnvironment.evalNodes resetMixin.body (Scope.set {} "p" (.literal "9px"))
      {}).1.map Prod.fst =
      .ok [.block (.style ⟨[[.word "b"]]⟩ 2) [.declaration ⟨"width", .literal "2px", default⟩]] ∧
    (rebindingEnvironment.evalNodes [.inclusion ⟨"count", some (.literal "9px"), default⟩]
      {} {}).1.map Prod.fst =
      .ok [.declaration ⟨"width", .literal "9px", default⟩,
        .declaration ⟨"width", .literal "9px", default⟩] ∧
    (rebindingEnvironment.evalNodes countMixin.body (Scope.set {} "p" (.literal "9px"))
      {}).1.map Prod.fst =
      .ok [.declaration ⟨"width", .number (Binary.ofInt 1), default⟩,
        .declaration ⟨"width", .number (Binary.ofInt 2), default⟩] :=
  ⟨rfl, rfl, rfl, rfl⟩

end Example

end Stylesheet
