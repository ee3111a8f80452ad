import Stylesheet.Body
import Stylesheet.Proofs.Nesting.Reading

/-!
# Evaluating plain rules

Plain rules hold nothing to evaluate: they are left as they are, and each of their declarations is
counted once.

* `Gives`: counted work that succeeds.
* `IsSettled`: a value that resolves to itself.
* `gives_evalNodesBy`, `gives_evalRule`: what evaluating plain items and rules gives.
-/

namespace Stylesheet

/-! ## Work that succeeds -/

section Gives

variable {σ α β : Type} {s s' s'' : σ}

/-- Some work succeeds from `s` with the result `a`, and leaves `s'`. -/
def Gives (work : ExceptT CompileError (StateM σ) α) (s : σ) (a : α) (s' : σ) : Prop :=
  work s = (.ok a, s')

theorem gives_pure (a : α) (s : σ) : Gives (pure a) s a s := rfl

theorem Gives.bind {x : ExceptT CompileError (StateM σ) α}
    {f : α → ExceptT CompileError (StateM σ) β} {a : α} {b : β} (hx : Gives x s a s')
    (hf : Gives (f a) s' b s'') : Gives (x >>= f) s b s'' := by
  show (match x s with | (outcome, s) => ExceptT.bindCont f outcome s) = _
  rw [hx]
  exact hf

theorem gives_mapM {f : α → ExceptT CompileError (StateM σ) α} {items : List α}
    (h : ∀ a ∈ items, Gives (f a) s a s) : Gives (items.mapM f) s items s := by
  induction items with
  | nil => exact gives_pure [] s
  | cons a items ih =>
    rw [List.mapM_cons]
    have hitems := ih fun b hb => h b (List.mem_cons_of_mem a hb)
    exact (h a List.mem_cons_self).bind (hitems.bind (gives_pure _ s))

end Gives

namespace Metered

variable {s : Session}

theorem gives_countNode (h : s.nodes < Limit.nodes.max) :
    Gives countNode s () { s with nodes := s.nodes + 1 } := by
  show check .nodes (s.nodes + 1) "" { s with nodes := s.nodes + 1 } = _
  rw [check, if_neg (by omega)]
  rfl

theorem gives_countImport (path : String) (h : s.imports < Limit.imports.max) :
    Gives (countImport path) s () { s with imports := s.imports + 1 } := by
  show check .imports (s.imports + 1) path { s with imports := s.imports + 1 } = _
  rw [check, if_neg (by omega)]
  rfl

theorem gives_nested {α : Type} {work : Metered α} {a : α}
    (hdepth : s.depth < Limit.evaluationDepth.max)
    (h : Gives work { s with depth := s.depth + 1 } a { s with depth := s.depth + 1 }) :
    Gives (nested work) s a s := by
  have hdescend : descend s = (.ok (), { s with depth := s.depth + 1 }) := by
    show (if Limit.evaluationDepth.max ≤ s.depth then throw (.limitExceeded .evaluationDepth "")
      else set { s with depth := s.depth + 1 } : Metered Unit) s = _
    rw [if_neg (by omega)]
    rfl
  rw [Gives, nested, hdescend]
  dsimp only
  rw [h]
  rfl

end Metered

namespace Nesting

/-! ## Values -/

section Values

variable {functions : FunctionTable} {scope : Scope} {k : Nat}

variable (functions scope) in
/-- Resolving a value of at most `k` levels gives it back. -/
def IsSettled (k : Nat) (v : Value) : Prop :=
  ∀ n (s : Session), k ≤ n → s.depth + k ≤ Limit.evaluationDepth.max →
    Gives (resolveIn functions scope n v) s v s

theorem IsSettled.mono {v : Value} (h : IsSettled functions scope k v) :
    IsSettled functions scope (k + 1) v := by
  intro n s hn hdepth
  exact h n s (by omega) (by omega)

theorem isSettled_ofIdent (text : String) : IsSettled functions scope 1 (.ofIdent text) := by
  intro n s hn hdepth
  obtain ⟨n, rfl⟩ := Nat.exists_eq_add_of_le' hn
  rw [Value.ofIdent]
  split_ifs <;> exact Metered.gives_nested (by omega) (gives_pure _ _)

theorem isSettled_list {items : List Value} (h : ∀ v ∈ items, IsSettled functions scope k v)
    (separator : Separator) : IsSettled functions scope (k + 1) (.list items separator) := by
  intro n s hn hdepth
  obtain ⟨n, rfl⟩ := Nat.exists_eq_succ_of_ne_zero (by omega : n ≠ 0)
  refine Metered.gives_nested (by omega) ?_
  have hitems : Gives (items.mapM (resolveIn functions scope n)) { s with depth := s.depth + 1 }
      items { s with depth := s.depth + 1 } := by
    refine gives_mapM fun v hv => h v hv n _ (by omega) ?_
    show s.depth + 1 + k ≤ _
    omega
  exact hitems.bind (gives_pure _ _)

theorem isSettled_listOf {items : List Value} (h : ∀ v ∈ items, IsSettled functions scope k v)
    (separator : Separator) : IsSettled functions scope (k + 1) (listOf separator items) := by
  unfold listOf
  split
  next v => exact (h v List.mem_cons_self).mono
  next => exact isSettled_list h separator

theorem isSettled_valueOf (rows : Row (Row Ident)) :
    IsSettled functions scope 3 (valueOf rows) := by
  rw [valueOf_eq_listOf]
  refine isSettled_listOf ?_ .comma
  intro v hv
  obtain ⟨row, -, rfl⟩ := List.mem_map.1 hv
  rw [row.value_eq_listOf]
  refine isSettled_listOf ?_ .space
  intro v hv
  obtain ⟨i, -, rfl⟩ := List.mem_map.1 hv
  exact isSettled_ofIdent i.text

end Values

/-! ## Items -/

section Items

variable {env : Environment} {enter : Environment.Run} {scope : Scope} {s s' s'' : Session}

theorem gives_mapValuesM (f : Value → Metered Value) (rows : Row (Row Word)) (s : Session) :
    Gives ((selectorOf rows).mapValuesM f) s (selectorOf rows) s := by
  refine Gives.bind (gives_mapM ?_) (gives_pure _ s)
  intro alt halt
  obtain ⟨row, -, rfl⟩ := List.mem_map.1 halt
  refine gives_mapM ?_
  intro piece hpiece
  rcases row.mem_pieces hpiece with rfl | ⟨text, rfl⟩
  · exact gives_pure _ s
  · exact gives_pure _ s

theorem gives_evalNodesBy_cons {node : Node} {nodes : List Node}
    (hnode : Gives (env.evalNodeBy enter node scope) s ([node], scope) s')
    (hnodes : Gives (env.evalNodesBy enter nodes scope) s' (nodes, scope) s'') :
    Gives (env.evalNodesBy enter (node :: nodes) scope) s (node :: nodes, scope) s'' := by
  rw [Environment.evalNodesBy]
  exact hnode.bind (hnodes.bind (gives_pure _ s''))

theorem gives_evalNodeBy_declaration {name : String} {value : Row (Row Ident)}
    {position : Position} (hdepth : s.depth = 0) (hnodes : s.nodes < Limit.nodes.max) :
    Gives (env.evalNodeBy enter (.declaration ⟨name, valueOf value, position⟩) scope) s
      ([.declaration ⟨name, valueOf value, position⟩], scope)
      { s with nodes := s.nodes + 1 } := by
  have hvalue : Gives (resolve env.functions scope (valueOf value))
      { s with nodes := s.nodes + 1 } (valueOf value) { s with nodes := s.nodes + 1 } :=
    isSettled_valueOf value levels _ (by decide) (by simp [hdepth, Limit.max])
  rw [Environment.evalNodeBy]
  exact (Metered.gives_countNode hnodes).bind (hvalue.bind (gives_pure _ _))

theorem gives_evalNodeBy_style {rows : Row (Row Word)} {depth : Nat} {body : List Node}
    (hbody : Gives (env.evalNodesBy enter body scope.child) s (body, scope.child) s') :
    Gives (env.evalNodeBy enter (.block (.style (selectorOf rows) depth) body) scope) s
      ([.block (.style (selectorOf rows) depth) body], scope) s' := by
  have hhead : Gives (env.resolveHead scope (.style (selectorOf rows) depth)) s
      (.style (selectorOf rows) depth) s :=
    (gives_mapValuesM _ rows s).bind (gives_pure _ s)
  rw [Environment.evalNodeBy]
  exact hhead.bind (hbody.bind (gives_pure _ s'))

/-- Plain items are left as they are, with their declarations counted. -/
theorem gives_evalNodesBy {depth : Nat} {body : Body} {nodes : List Node}
    (h : body.Nodes depth nodes) (scope : Scope) (hdepth : s.depth = 0)
    (hsize : s.nodes + body.size ≤ Limit.nodes.max) :
    Gives (env.evalNodesBy enter nodes scope) s (nodes, scope)
      { s with nodes := s.nodes + body.size } := by
  -- What a nested rule binds ends with it, so the scope after each item is the one before it.
  induction h generalizing scope s with
  | nil => exact gives_pure _ s
  | @declaration _ _ _ _ rest _ _ ih =>
    rw [Body.size] at hsize ⊢
    have hcount : s.nodes + (rest.size + 1) = s.nodes + 1 + rest.size := by omega
    rw [hcount] at hsize ⊢
    have hrest := ih (s := { s with nodes := s.nodes + 1 }) scope hdepth hsize
    exact gives_evalNodesBy_cons (gives_evalNodeBy_declaration hdepth (by omega)) hrest
  | @rule _ _ inner rest _ _ _ _ ihinner ihrest =>
    rw [Body.size, ← Nat.add_assoc] at hsize ⊢
    have hinner := ihinner scope.child hdepth (by omega)
    have hrest := ihrest (s := { s with nodes := s.nodes + inner.size }) scope hdepth hsize
    exact gives_evalNodesBy_cons (gives_evalNodeBy_style hinner) hrest

theorem gives_evalRule {t : Tree} {node : Node} (h : t.IsNode node) (scope : Scope)
    (hdepth : s.depth = 0) (hsize : s.nodes + t.body.size ≤ Limit.nodes.max) :
    Gives (env.evalRule node scope) s [node] { s with nodes := s.nodes + t.body.size } := by
  obtain ⟨body, rfl, hbody⟩ := h
  have hrule : Gives (env.evalNodes [.block (.style (selectorOf t.selector) 1) body] scope) s
      ([.block (.style (selectorOf t.selector) 1) body], scope)
      { s with nodes := s.nodes + t.body.size } :=
    gives_evalNodesBy_cons (gives_evalNodeBy_style (gives_evalNodesBy hbody _ hdepth hsize))
      (gives_pure _ _)
  exact hrule.bind (gives_pure _ _)

end Items

end Nesting

end Stylesheet
