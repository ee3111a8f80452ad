import Stylesheet.Proofs.Mixin.References

/-!
# Renaming a parameter

A parameter can have any other name that the mixin does not use. Its value is the same, since an
argument means what it means where the inclusion stands, and so is the copy of the body, since all
parameters are replaced at once and what is put in for one of them is not looked at for another.

* `Mixin.rename`: another name for a parameter.
* `Renamed`: bindings that differ in the name of one parameter.
* `bindParameters_rename`: the parameters are bound alike.
* `Includes`: the inclusions that are expanded together with a mixin.
* `expandInclude_rename`: renaming a parameter changes no expansion.
-/

namespace Stylesheet

/-- The value with the variable `q` in place of `p`. -/
def Value.rename (p q : String) (v : Value) : Value :=
  v.substitute fun name => if name = p then some (.reference q) else none

/-- Parameters with the name `q` in place of `p`, also in the defaults after it. -/
def renameParameters (p q : String) : List Parameter → List Parameter
  | [] => []
  | param :: params =>
    if param.name = p then
      ⟨q, param.default⟩ :: params.map fun later =>
        { later with default := later.default.map (Value.rename p q) }
    else param :: renameParameters p q params

namespace Mixin

variable (m : Mixin)

/-- The mixin with the name `q` for its parameter `p`. -/
def rename (p q : String) : Mixin :=
  ⟨m.name, renameParameters p q m.params, Node.mapAllValues (Value.rename p q) m.body⟩

/-- The name occurs neither among the parameters nor in a default or the body. -/
structure IsFresh (q : String) : Prop where
  param_ne : ∀ param ∈ m.params, param.name ≠ q
  notMem_default : ∀ param ∈ m.params, ∀ v ∈ param.default, q ∉ v.references
  notMem_body : Node.AllEach (fun v => q ∉ v.references) m.body

/-- The parameter gets an argument or has a default. -/
def Supplies (args : Option Value) (p : String) : Prop :=
  ∃ k param, m.params[k]? = some param ∧ param.name = p ∧
    (k < (positional args).length ∨ param.default.isSome)

end Mixin

/-! ## Bindings -/

/-- Bindings in which `q` is bound to what `p` is bound to otherwise. -/
structure Renamed (p q : String) (b c : Scope) : Prop where
  hasNoAlias : b.HasNoAlias
  outer_eq : c.outer = b.outer
  isSome : (b.locals.get? p).isSome
  get?_eq : c.locals.get? q = b.locals.get? p
  get?_other : ∀ x, x ≠ p → x ≠ q → c.locals.get? x = b.locals.get? x

section Bindings

variable {p q : String} {b c : Scope} {v : Value}

namespace Renamed

/-- Looking the new name up comes to the same as the old one, and any third name stays. -/
theorem resolve_eq (h : Renamed p q b c) {x : String} (hx : x ≠ q) :
    c.resolve (if x = p then q else x) = b.resolve x := by
  have hget : c.locals.get? (if x = p then q else x) = b.locals.get? x := by
    by_cases hp : x = p
    · rw [if_pos hp, hp, h.get?_eq]
    · rw [if_neg hp, h.get?_other x hp hx]
  cases hb : b.locals.get? x with
  | some v =>
    have hv := h.hasNoAlias x v hb
    rw [Scope.resolve_of_bound hb hv, Scope.resolve_of_bound (hget.trans hb) hv]
  | none =>
    have hp : x ≠ p := by
      rintro rfl
      simpa [hb] using h.isSome
    rw [if_neg hp] at hget ⊢
    rw [Scope.resolve_of_unbound hb, Scope.resolve_of_unbound (hget.trans hb), h.outer_eq]

theorem resolveReferences_eq (h : Renamed p q b c) (hv : q ∉ v.references) :
    (v.rename p q).resolveReferences c = v.resolveReferences b := by
  refine Value.mapReferences_substitute v fun x hx => ?_
  have hresolve := h.resolve_eq (ne_of_mem_of_not_mem hx hv)
  show ((Value.reference x).substitute _).resolveReferences c =
    (Value.reference x).resolveReferences b
  rw [Value.substitute_reference, Value.resolveReferences_reference, ← hresolve]
  by_cases hp : x = p
  · rw [if_pos hp, if_pos hp]
    exact Value.resolveReferences_reference
  · rw [if_neg hp, if_neg hp]
    exact Value.resolveReferences_reference

theorem substitute_eq (h : Renamed p q b c) (hv : q ∉ v.references) :
    (v.rename p q).substitute c.locals.get? = v.substitute b.locals.get? := by
  refine Value.substitute_substitute v fun x hx => ?_
  have hx := ne_of_mem_of_not_mem hx hv
  rw [Value.substitute_reference, Value.substitute_reference]
  by_cases hp : x = p
  · subst hp
    obtain ⟨w, hw⟩ := Option.isSome_iff_exists.1 h.isSome
    rw [if_pos rfl, Option.getD_some, Value.substitute_reference, h.get?_eq, hw]
    rfl
  · rw [if_neg hp, Option.getD_none, Value.substitute_reference, h.get?_other x hp hx]

theorem set (h : Renamed p q b c) {x : String} (hp : x ≠ p) (hq : x ≠ q)
    (hv : ∀ target, v ≠ .reference target) : Renamed p q (b.set x v) (c.set x v) where
  hasNoAlias := h.hasNoAlias.set hv
  outer_eq := h.outer_eq
  isSome := by
    rw [Scope.set, Table.get?_insert_of_ne _ (Ne.symm hp)]
    exact h.isSome
  get?_eq := by
    rw [Scope.set, Scope.set, Table.get?_insert_of_ne _ (Ne.symm hp),
      Table.get?_insert_of_ne _ (Ne.symm hq)]
    exact h.get?_eq
  get?_other y hyp hyq := by
    by_cases hy : y = x
    · rw [hy, Scope.set, Scope.set, Table.get?_insert_self, Table.get?_insert_self]
    · rw [Scope.set, Scope.set, Table.get?_insert_of_ne _ hy, Table.get?_insert_of_ne _ hy]
      exact h.get?_other y hyp hyq

/-- The parameter itself. -/
theorem of_set (h : b.HasNoAlias) (hv : ∀ target, v ≠ .reference target) :
    Renamed p q (b.set p v) (b.set q v) where
  hasNoAlias := h.set hv
  outer_eq := rfl
  isSome := by
    rw [Scope.set, Table.get?_insert_self]
    rfl
  get?_eq := by
    rw [Scope.set, Scope.set, Table.get?_insert_self, Table.get?_insert_self]
  get?_other y hyp hyq := by
    rw [Scope.set, Scope.set, Table.get?_insert_of_ne _ hyp, Table.get?_insert_of_ne _ hyq]

end Renamed

end Bindings

/-! ## Parameters -/

section Parameters

variable {α : Type} {f g : Scope → α} {p q : String} {scope b c : Scope} {params : List Parameter}
  {args : List Value}

theorem map_bind_congr {x y : Except CompileError Value}
    {next next' : Value → Except CompileError Scope} (h : x = y)
    (hnext : ∀ v, y = .ok v → (next v).map f = (next' v).map g) :
    (x >>= next).map f = (y >>= next').map g := by
  subst h
  cases x with
  | error e => rfl
  | ok v => exact hnext v rfl

/-- Only a parameter without a value shows its name. -/
theorem parameterValue_rename {param : Parameter} (h : 0 < args.length ∨ param.default.isSome) :
    parameterValue scope b ⟨q, param.default⟩ args.head? =
      parameterValue scope b param args.head? := by
  cases args with
  | cons arg args => rfl
  | nil =>
    obtain ⟨default, hdefault⟩ := Option.isSome_iff_exists.1 (h.resolve_left (by simp))
    unfold parameterValue
    rw [hdefault]

/-- The parameters after the one that is renamed. -/
theorem bindParameters_later (hfg : ∀ b c, Renamed p q b c → f c = g b) (h : Renamed p q b c)
    (hp : ∀ param ∈ params, param.name ≠ p) (hq : ∀ param ∈ params, param.name ≠ q)
    (hdefault : ∀ param ∈ params, ∀ v ∈ param.default, q ∉ v.references) :
    (bindParameters scope (params.map fun later =>
      { later with default := later.default.map (Value.rename p q) }) args c).map f =
        (bindParameters scope params args b).map g := by
  induction params generalizing args b c with
  | nil => exact congrArg Except.ok (hfg b c h)
  | cons param params ih =>
    rw [List.forall_mem_cons] at hp hq hdefault
    rw [List.map_cons, bindParameters_cons, bindParameters_cons]
    refine map_bind_congr ?_ fun v hv => ?_
    · cases args.head? with
      | some arg => rfl
      | none =>
        unfold parameterValue
        cases hd : param.default with
        | none => rfl
        | some default => exact h.resolveReferences_eq (hdefault.1 default hd)
    · exact ih (h.set hp.1 hq.1 (parameterValue_ne_reference hv)) hp.2 hq.2 hdefault.2

theorem bindParameters_rename (hfg : ∀ b c, Renamed p q b c → f c = g b) (hb : b.HasNoAlias)
    (hdistinct : (params.map (·.name)).Nodup) (hq : ∀ param ∈ params, param.name ≠ q)
    (hdefault : ∀ param ∈ params, ∀ v ∈ param.default, q ∉ v.references) {k : Nat}
    {param : Parameter} (hk : params[k]? = some param) (hname : param.name = p)
    (hgiven : k < args.length ∨ param.default.isSome) :
    (bindParameters scope (renameParameters p q params) args b).map f =
      (bindParameters scope params args b).map g := by
  induction params generalizing args b k with
  | nil => simp at hk
  | cons first params ih =>
    rw [List.forall_mem_cons] at hq hdefault
    rw [List.map_cons, List.nodup_cons] at hdistinct
    rw [renameParameters]
    -- Up to the parameter itself the bindings are equal, and from there on renamed.
    by_cases hfirst : first.name = p
    · rw [if_pos hfirst, bindParameters_cons, bindParameters_cons]
      have hlater : ∀ param ∈ params, param.name ≠ p := fun param hparam hp =>
        hdistinct.1 (List.mem_map.2 ⟨param, hparam, hp.trans hfirst.symm⟩)
      refine map_bind_congr ?_ fun v hv => ?_
      · cases k with
        | zero =>
          cases hk
          exact parameterValue_rename hgiven
        | succ k => exact absurd hname (hlater param (List.mem_of_getElem? hk))
      · have hset := Renamed.of_set (p := p) (q := q) hb (parameterValue_ne_reference hv)
        rw [hfirst]
        exact bindParameters_later hfg hset hlater hq.2 hdefault.2
    · rw [if_neg hfirst, bindParameters_cons, bindParameters_cons]
      cases k with
      | zero =>
        cases hk
        exact absurd hname hfirst
      | succ k =>
        refine map_bind_congr rfl fun v hv => ?_
        have hgiven : k < args.tail.length ∨ param.default.isSome :=
          hgiven.imp_left fun h => by rw [List.length_tail]; omega
        exact ih (hb.set (parameterValue_ne_reference hv)) hdistinct.2 hq.2 hdefault.2 hk hgiven

end Parameters

/-! ## Inclusions inside of a mixin -/

namespace Node

mutual

/-- The mixins that are included here or within nested style rules. -/
def included : Node → List String
  | .inclusion i => [i.name]
  | .block (.style _ _) body => allIncluded body
  | _ => []

def allIncluded : List Node → List String
  | [] => []
  | n :: ns => included n ++ allIncluded ns

end

mutual

theorem included_mapValues (f : Value → Value) : (node : Node) →
    (node.mapValues f).included = node.included
  | .inclusion _ => rfl
  | .block (.style _ _) body => allIncluded_mapAllValues f body
  | .block (.media _) _ => rfl
  | .block .fontFace _ => rfl
  | .block (.keyframes _) _ => rfl
  | .block (.atRule _ _) _ => rfl
  | .statement _ _ => rfl
  | .importRule _ => rfl
  | .declaration _ => rfl
  | .assignment _ => rfl
  | .comment _ => rfl
  | .mixin _ _ _ => rfl
  | .branch _ _ _ => rfl
  | .loop _ _ _ _ _ => rfl

theorem allIncluded_mapAllValues (f : Value → Value) : (nodes : List Node) →
    allIncluded (mapAllValues f nodes) = allIncluded nodes
  | [] => rfl
  | node :: nodes => by
    rw [mapAllValues, allIncluded, allIncluded, included_mapValues f node,
      allIncluded_mapAllValues f nodes]

end

end Node

/-- The mixin of the first name includes one of the second, here or within nested style rules. -/
def Includes (layers : List Registry) (a b : String) : Prop :=
  ∃ m, Registry.find? layers a = some m ∧ b ∈ Node.allIncluded m.body

section Expansion

variable {expand expand' : Inclusion → Metered (List Node)} {layers layers' : List Registry}
  {scope : Scope}

mutual

theorem spliceNode_congr : (node : Node) →
    (∀ i : Inclusion, i.name ∈ node.included → expand i = expand' i) →
    spliceNode expand node = spliceNode expand' node
  | .inclusion i, h => h i List.mem_cons_self
  | .block (.style _ _) body, h => by
    rw [spliceNode, spliceNode, spliceNodes_congr body h]
  | .block (.media _) _, _ => rfl
  | .block .fontFace _, _ => rfl
  | .block (.keyframes _) _, _ => rfl
  | .block (.atRule _ _) _, _ => rfl
  | .statement _ _, _ => rfl
  | .importRule _, _ => rfl
  | .declaration _, _ => rfl
  | .assignment _, _ => rfl
  | .comment _, _ => rfl
  | .mixin _ _ _, _ => rfl
  | .branch _ _ _, _ => rfl
  | .loop _ _ _ _ _, _ => rfl

theorem spliceNodes_congr : (nodes : List Node) →
    (∀ i : Inclusion, i.name ∈ Node.allIncluded nodes → expand i = expand' i) →
    spliceNodes expand nodes = spliceNodes expand' nodes
  | [], _ => rfl
  | node :: nodes, h => by
    have hnode := spliceNode_congr node fun i hi => h i (List.mem_append_left _ hi)
    have hnodes := spliceNodes_congr nodes fun i hi => h i (List.mem_append_right _ hi)
    rw [spliceNodes, spliceNodes, hnode, hnodes]

end

theorem expandIncludeIn_congr {i : Inclusion} {n : Nat}
    (hbody : mixinBody layers' scope i = mixinBody layers scope i)
    (h : ∀ j : Inclusion, Includes layers i.name j.name →
      expandIncludeIn layers' scope n j = expandIncludeIn layers scope n j) :
    expandIncludeIn layers' scope (n + 1) i = expandIncludeIn layers scope (n + 1) i := by
  rw [expandIncludeIn_succ, expandIncludeIn_succ, inclusionBody, inclusionBody, hbody, bind_assoc,
    bind_assoc]
  congr 1
  funext _
  unfold mixinBody
  cases hm : Registry.find? layers i.name with
  | none => rfl
  | some m =>
    dsimp only
    cases m.bind i.args scope with
    | error e => rfl
    | ok b =>
      refine spliceNodes_congr _ fun j hj => h j ⟨m, hm, ?_⟩
      rwa [Mixin.instantiate, Node.allIncluded_mapAllValues] at hj

/-- A mixin matters only to those that reach it. -/
theorem expandIncludeIn_of_unreached {name : String}
    (hsame : ∀ other, other ≠ name → Registry.find? layers' other = Registry.find? layers other)
    (n : Nat) (i : Inclusion) (h : ¬ Relation.ReflTransGen (Includes layers) i.name name) :
    expandIncludeIn layers' scope n i = expandIncludeIn layers scope n i := by
  induction n generalizing i with
  | zero => rfl
  | succ n ih =>
    refine expandIncludeIn_congr ?_ fun j hj => ih j fun hreach => h (.head hj hreach)
    have hne : i.name ≠ name := fun heq => h (heq ▸ .refl)
    rw [mixinBody, mixinBody, hsame _ hne]

end Expansion

/-! ## Renaming -/

theorem mixinBody_rename {layers : List Registry} {i : Inclusion} {m : Mixin} {p q : String}
    (hm : Registry.find? layers i.name = some m) (hdistinct : (m.params.map (·.name)).Nodup)
    (hp : m.Supplies i.args p) (hq : m.IsFresh q) (scope : Scope) :
    mixinBody (Registry.replace layers i.name (m.rename p q)) scope i =
      mixinBody layers scope i := by
  obtain ⟨k, param, hk, hname, hgiven⟩ := hp
  rw [mixinBody, mixinBody, Registry.find?_replace_self hm, hm]
  refine bindParameters_rename (fun b c h => ?_) scope.hasNoAlias_child hdistinct hq.param_ne
    hq.notMem_default hk hname hgiven
  show Node.mapAllValues _ (Node.mapAllValues _ m.body) = Node.mapAllValues _ m.body
  rw [Node.mapAllValues_mapAllValues]
  exact Node.mapAllValues_congr (fun v hv => h.substitute_eq hv) m.body hq.notMem_body

/-- Renaming a parameter to a name that the mixin does not use changes no inclusion of it, whatever
becomes of the inclusion, if the parameter has a value and the mixin does not include itself. Any
parameter with an argument stands for the argument as it is where the inclusion stands, and this is
what is put in its place in the body, whatever variables it has. -/
theorem expandInclude_rename (layers : List Registry) (scope : Scope) (i : Inclusion) (m : Mixin)
    (hm : Registry.find? layers i.name = some m) (hdistinct : (m.params.map (·.name)).Nodup)
    (hself : ¬ Relation.TransGen (Includes layers) i.name i.name) :
    (∀ p q, m.Supplies i.args p → m.IsFresh q → ∀ s,
      expandInclude (Registry.replace layers i.name (m.rename p q)) scope i s =
        expandInclude layers scope i s) ∧
    ∀ b, m.bind i.args scope = .ok b → ∀ (k : Nat) (param : Parameter) (arg : Value),
      m.params[k]? = some param → (positional i.args)[k]? = some arg →
        arg.resolveReferences scope =
          .ok ((Value.reference param.name).substitute b.locals.get?) := by
  refine ⟨fun p q hp hq s => ?_, fun b hb k param arg hparam harg => ?_⟩
  · have hexpand : expandIncludeIn (Registry.replace layers i.name (m.rename p q)) scope (999 + 1)
        i = expandIncludeIn layers scope (999 + 1) i := by
      refine expandIncludeIn_congr (mixinBody_rename hm hdistinct hp hq scope) fun j hj => ?_
      refine expandIncludeIn_of_unreached (fun other hne => Registry.find?_replace_of_ne hne) _ j ?_
      exact fun hreach => hself (.head' hj hreach)
    exact congrFun hexpand s
  · obtain ⟨v, hv, hget⟩ := bindParameters_argument hdistinct hb hparam harg
    rw [Value.substitute_reference, hget]
    exact hv

section Example

/-- Has a default that refers to a parameter, and hands that parameter on. -/
def boxMixin : Mixin :=
  ⟨"box", [⟨"size", none⟩, ⟨"edge", some (.reference "size")⟩],
    [.declaration ⟨"border", .reference "edge", default⟩,
      .inclusion ⟨"width", some (.reference "size"), default⟩]⟩

def boxLayers : List Registry :=
  [Registry.register (Registry.register .empty widthMixin) boxMixin]

theorem box_not_self : ¬ Relation.TransGen (Includes boxLayers) "box" "box" := by
  have hbox : ∀ x, Includes boxLayers "box" x → x = "width" := by
    rintro x ⟨m, hm, hx⟩
    have hfound : Registry.find? boxLayers "box" = some boxMixin := rfl
    cases hfound.symm.trans hm
    simpa [boxMixin, Node.allIncluded, Node.included] using hx
  have hwidth : ∀ x, ¬ Includes boxLayers "width" x := by
    rintro x ⟨m, hm, hx⟩
    have hfound : Registry.find? boxLayers "width" = some widthMixin := rfl
    cases hfound.symm.trans hm
    cases hx
  intro h
  obtain ⟨x, hx, hreach⟩ := Relation.TransGen.head'_iff.1 h
  obtain rfl := hbox x hx
  rcases hreach.cases_head with heq | ⟨y, hy, -⟩
  · exact absurd heq (by decide)
  · exact hwidth y hy

/-- The argument is a variable with the name of another parameter. -/
theorem expandInclude_rename_box :
    Registry.find? boxLayers "box" = some boxMixin ∧
    boxMixin.Supplies (some (.reference "edge")) "size" ∧ boxMixin.IsFresh "side" ∧
    expandInclude (Registry.replace boxLayers "box" (boxMixin.rename "size" "side"))
        (Scope.set {} "edge" (.literal "2px")) ⟨"box", some (.reference "edge"), default⟩ {} =
      expandInclude boxLayers (Scope.set {} "edge" (.literal "2px"))
        ⟨"box", some (.reference "edge"), default⟩ {} := by
  have hsupplies : boxMixin.Supplies (some (.reference "edge")) "size" :=
    ⟨0, _, rfl, rfl, .inl (by decide)⟩
  have hfresh : boxMixin.IsFresh "side" :=
    ⟨by decide, by simp [boxMixin, Value.references],
      by simp [boxMixin, Node.AllEach, Node.Each, Value.references]⟩
  have hrename := expandInclude_rename boxLayers (Scope.set {} "edge" (.literal "2px"))
    ⟨"box", some (.reference "edge"), default⟩ boxMixin rfl (by decide) box_not_self
  exact ⟨rfl, hsupplies, hfresh, hrename.1 "size" "side" hsupplies hfresh {}⟩

end Example

end Stylesheet
