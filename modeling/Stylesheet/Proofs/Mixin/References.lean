import Stylesheet.Proofs.Evaluation.Splicing
import Stylesheet.Proofs.Evaluation.Shadowing
import Stylesheet.Proofs.Scope.Walk

/-!
# Variables in the body of a mixin

What becomes of a value hangs on its variables only, and what becomes of a body on the values in it.
A copy of a body is made in one go: no value that is put in is looked at again.

* `Value.references`: the variables of a value.
* `Value.mapReferences_congr`, `Value.mapReferences_substitute`: replacing variables.
* `Node.Each`: all values in a node, except those in mixins, have a property.
* `Node.mapValues_congr`, `Node.mapValues_mapValues`: replacing values.
* `bindParameters_last_argument`: an argument means what it means where the inclusion stands.
* `Scope.HasNoAlias`: no parameter is bound to a variable.
* `Registry.replace`: another mixin under a name that is taken.
-/

namespace Stylesheet

theorem except_ok_of_bind {α β : Type} {x : Except CompileError α}
    {next : α → Except CompileError β} {b : β} (h : (x >>= next) = .ok b) :
    ∃ a, x = .ok a ∧ next a = .ok b := by
  cases x with
  | error e => cases h
  | ok a => exact ⟨a, rfl, h⟩

theorem Table.of_get?_insert {α : Type} {t : Table α} {x y : String} {v w : α}
    (h : (t.insert x v).get? y = some w) : y = x ∧ w = v ∨ y ≠ x ∧ t.get? y = some w := by
  by_cases hy : y = x
  · rw [hy, get?_insert_self] at h
    exact .inl ⟨hy, (Option.some.inj h).symm⟩
  · rw [get?_insert_of_ne _ hy] at h
    exact .inr ⟨hy, h⟩

namespace Value

/-! ## Variables of a value -/

mutual

/-- The variables of a value, from left to right. -/
def references : Value → List String
  | .reference name => [name]
  | .list items _ => allReferences items
  | .call _ args => references args
  | .binary left _ right => references left ++ references right
  | .joined parts => allReferences parts
  | .quantity _ => []
  | .literal _ => []
  | .boolean _ => []
  | .undefined _ => []

def allReferences : List Value → List String
  | [] => []
  | v :: vs => references v ++ allReferences vs

end

theorem substitute_reference (bound : String → Option Value) (name : String) :
    (Value.reference name).substitute bound = (bound name).getD (.reference name) :=
  rfl

theorem substitute_none (v : Value) : v.substitute (fun _ => none) = v := mapReferences_none v

section Replace

variable {m : Type → Type} [Monad m] {f g : String → m (Option Value)}
  {bound : String → Option Value}

mutual

/-- Two passes over a value come to the same as one if they do for each of its variables. -/
theorem mapReferences_substitute : (v : Value) →
    (∀ x ∈ v.references, mapReferences f ((Value.reference x).substitute bound) =
      mapReferences g (.reference x)) →
    (v.substitute bound).mapReferences f = v.mapReferences g
  | .reference name, h => h name List.mem_cons_self
  | .list items separator, h => by
    show mapReferences f (.list (Id.run (mapAllReferences _ items)) separator) = _
    rw [mapReferences, mapReferences, mapAllReferences_substitute items h]
  | .call name args, h => by
    show mapReferences f (.call name (args.substitute bound)) = _
    rw [mapReferences, mapReferences, mapReferences_substitute args h]
  | .binary left op right, h => by
    show mapReferences f (.binary (left.substitute bound) op (right.substitute bound)) = _
    have hleft := mapReferences_substitute left fun x hx => h x (List.mem_append_left _ hx)
    have hright := mapReferences_substitute right fun x hx => h x (List.mem_append_right _ hx)
    rw [mapReferences, mapReferences, hleft, hright]
  | .joined parts, h => by
    show mapReferences f (.joined (Id.run (mapAllReferences _ parts))) = _
    rw [mapReferences, mapReferences, mapAllReferences_substitute parts h]
  | .quantity _, _ => rfl
  | .literal _, _ => rfl
  | .boolean _, _ => rfl
  | .undefined _, _ => rfl

theorem mapAllReferences_substitute : (vs : List Value) →
    (∀ x ∈ allReferences vs, mapReferences f ((Value.reference x).substitute bound) =
      mapReferences g (.reference x)) →
    mapAllReferences f (Id.run (mapAllReferences (fun name => pure (bound name)) vs)) =
      mapAllReferences g vs
  | [], _ => rfl
  | v :: vs, h => by
    show mapAllReferences f (v.substitute bound :: Id.run (mapAllReferences _ vs)) = _
    have hv := mapReferences_substitute v fun x hx => h x (List.mem_append_left _ hx)
    have hvs := mapAllReferences_substitute vs fun x hx => h x (List.mem_append_right _ hx)
    rw [mapAllReferences, mapAllReferences, hv, hvs]

end

/-- Replacements that do the same to each variable of a value do the same to the value. -/
theorem mapReferences_congr (v : Value) (h : ∀ x ∈ v.references,
    mapReferences f (.reference x) = mapReferences g (.reference x)) :
    v.mapReferences f = v.mapReferences g := by
  have hpasses : (v.substitute fun _ => none).mapReferences f = v.mapReferences g :=
    mapReferences_substitute v h
  rwa [substitute_none] at hpasses

end Replace

theorem substitute_substitute {f g bound : String → Option Value} (v : Value)
    (h : ∀ x ∈ v.references,
      ((Value.reference x).substitute bound).substitute f = (Value.reference x).substitute g) :
    (v.substitute bound).substitute f = v.substitute g :=
  congrArg Id.run (mapReferences_substitute v h)

theorem resolveReferences_reference {scope : Scope} {name : String} :
    (Value.reference name).resolveReferences scope = scope.resolve name := by
  rw [resolveReferences, mapReferences]
  cases scope.resolve name <;> rfl

theorem resolveReferences_congr {a b : Scope} (v : Value)
    (h : ∀ x ∈ v.references, a.resolve x = b.resolve x) :
    v.resolveReferences a = v.resolveReferences b := by
  refine mapReferences_congr v fun x hx => ?_
  rw [mapReferences, mapReferences, h x hx]

/-- No alias is left once the variables are replaced. -/
theorem resolveReferences_ne_reference {scope : Scope} {v w : Value}
    (h : v.resolveReferences scope = .ok w) (target : String) : w ≠ .reference target := by
  cases v with
  | reference name =>
    rw [resolveReferences_reference] at h
    exact Scope.resolve_ne_reference h target
  | list items separator =>
    obtain ⟨items, -, h⟩ := except_ok_of_bind h
    cases h
    simp
  | call name args =>
    obtain ⟨args, -, h⟩ := except_ok_of_bind h
    cases h
    simp
  | binary left op right =>
    obtain ⟨left, -, h⟩ := except_ok_of_bind h
    obtain ⟨right, -, h⟩ := except_ok_of_bind h
    cases h
    simp
  | joined parts =>
    obtain ⟨parts, -, h⟩ := except_ok_of_bind h
    cases h
    simp
  | quantity q => cases h; simp
  | literal text => cases h; simp
  | boolean truth => cases h; simp
  | undefined name => cases h; simp

end Value

/-! ## Values in a node -/

namespace Node

mutual

/-- All values in a node have a property. Mixins are left alone. -/
def Each (p : Value → Prop) : Node → Prop
  | .block head body => head.IsEvaluated p ∧ AllEach p body
  | .declaration d => p d.value
  | .assignment a => p a.value
  | .inclusion i => ∀ v ∈ i.args, p v
  | .branch condition body otherwise => p condition ∧ AllEach p body ∧ AllEach p otherwise
  | .loop _ first last _ body => p first ∧ p last ∧ AllEach p body
  | .statement _ _ => True
  | .importRule _ => True
  | .comment _ => True
  | .mixin _ _ _ => True

def AllEach (p : Value → Prop) : List Node → Prop
  | [] => True
  | n :: ns => Each p n ∧ AllEach p ns

end

end Node

section MapValues

variable {f g : Value → Value} {p : Value → Prop}

theorem Selector.mapValues_congr {s : Selector} (hp : ∀ v, p v → f v = g v)
    (h : ∀ alt ∈ s.alternatives, ∀ v, .value v ∈ alt → p v) : s.mapValues f = s.mapValues g := by
  refine congrArg Selector.mk (List.map_congr_left fun alt halt => List.map_congr_left ?_)
  intro piece hpiece
  cases piece with
  | value v => exact congrArg Piece.value (hp v (h alt halt v hpiece))
  | word text => rfl
  | space => rfl
  | parent => rfl

theorem Head.mapValues_congr {head : Head} (hp : ∀ v, p v → f v = g v) (h : head.IsEvaluated p) :
    head.mapValues f = head.mapValues g := by
  cases head with
  | style selector depth => rw [Head.mapValues, Head.mapValues, Selector.mapValues_congr hp h]
  | media query => rfl
  | fontFace => rfl
  | keyframes name => rfl
  | atRule name prelude => rfl

theorem Head.mapValues_mapValues (head : Head) :
    (head.mapValues g).mapValues f = head.mapValues (f ∘ g) := by
  cases head with
  | style selector depth =>
    refine congrArg (Head.style · depth) (congrArg Selector.mk ?_)
    show (selector.alternatives.map _).map _ = _
    rw [List.map_map]
    refine List.map_congr_left fun alt _ => ?_
    show (alt.map _).map _ = _
    rw [List.map_map]
    refine List.map_congr_left fun piece _ => ?_
    cases piece <;> rfl
  | media query => rfl
  | fontFace => rfl
  | keyframes name => rfl
  | atRule name prelude => rfl

namespace Node

mutual

theorem mapValues_congr (hp : ∀ v, p v → f v = g v) : (node : Node) → Each p node →
    node.mapValues f = node.mapValues g
  | .block head body, h => by
    rw [mapValues, mapValues, Head.mapValues_congr hp h.1, mapAllValues_congr hp body h.2]
  | .declaration d, h => by rw [mapValues, mapValues, hp d.value h]
  | .assignment a, h => by rw [mapValues, mapValues, hp a.value h]
  | .inclusion i, h => by
    have hargs : i.args.map f = i.args.map g := Option.map_congr fun v hv => hp v (h v hv)
    rw [mapValues, mapValues, hargs]
  | .branch condition body otherwise, h => by
    rw [mapValues, mapValues, hp condition h.1, mapAllValues_congr hp body h.2.1,
      mapAllValues_congr hp otherwise h.2.2]
  | .loop _ first last _ body, h => by
    rw [mapValues, mapValues, hp first h.1, hp last h.2.1, mapAllValues_congr hp body h.2.2]
  | .statement _ _, _ => rfl
  | .importRule _, _ => rfl
  | .comment _, _ => rfl
  | .mixin _ _ _, _ => rfl

theorem mapAllValues_congr (hp : ∀ v, p v → f v = g v) : (nodes : List Node) → AllEach p nodes →
    mapAllValues f nodes = mapAllValues g nodes
  | [], _ => rfl
  | node :: nodes, h => by
    rw [mapAllValues, mapAllValues, mapValues_congr hp node h.1, mapAllValues_congr hp nodes h.2]

end

mutual

theorem mapValues_mapValues : (node : Node) →
    (node.mapValues g).mapValues f = node.mapValues (f ∘ g)
  | .block head body => by
    rw [mapValues, mapValues, mapValues, Head.mapValues_mapValues, mapAllValues_mapAllValues body]
  | .declaration _ => rfl
  | .assignment _ => rfl
  | .inclusion i => by
    rw [mapValues, mapValues, mapValues, Option.map_map]
  | .branch _ body otherwise => by
    rw [mapValues, mapValues, mapValues, mapAllValues_mapAllValues body,
      mapAllValues_mapAllValues otherwise]
    rfl
  | .loop _ _ _ _ body => by
    rw [mapValues, mapValues, mapValues, mapAllValues_mapAllValues body]
    rfl
  | .statement _ _ => rfl
  | .importRule _ => rfl
  | .comment _ => rfl
  | .mixin _ _ _ => rfl

theorem mapAllValues_mapAllValues : (nodes : List Node) →
    mapAllValues f (mapAllValues g nodes) = mapAllValues (f ∘ g) nodes
  | [] => rfl
  | node :: nodes => by
    rw [mapAllValues, mapAllValues, mapAllValues, mapValues_mapValues node,
      mapAllValues_mapAllValues nodes]

end

end Node

end MapValues

/-! ## Arguments -/

section Arguments

variable {scope b c : Scope} {params : List Parameter} {args : List Value}

/-- The value of a parameter: its argument, its default, or none. -/
def parameterValue (scope bindings : Scope) (param : Parameter) :
    Option Value → Except CompileError Value
  | some arg => arg.resolveReferences scope
  | none =>
    match param.default with
    | some default => default.resolveReferences bindings
    | none => .ok (.undefined param.name)

theorem bindParameters_cons (param : Parameter) :
    bindParameters scope (param :: params) args b =
      parameterValue scope b param args.head? >>= fun v =>
        bindParameters scope params args.tail (b.set param.name v) := by
  cases args with
  | nil =>
    rw [bindParameters]
    cases hdefault : param.default with
    | none => simp [parameterValue, hdefault]; rfl
    | some default => simp [parameterValue, hdefault]
  | cons arg args => rfl

theorem bindParameters_get?_of_notMem {x : String} (hx : x ∉ params.map (·.name))
    (h : bindParameters scope params args b = .ok c) : c.locals.get? x = b.locals.get? x := by
  induction params generalizing args b with
  | nil =>
    cases h
    rfl
  | cons param params ih =>
    rw [List.map_cons, List.mem_cons, not_or] at hx
    rw [bindParameters_cons] at h
    obtain ⟨v, -, h⟩ := except_ok_of_bind h
    rw [ih hx.2 h]
    exact Table.get?_insert_of_ne _ hx.1 _

/-- The value of a parameter that gets an argument is the argument, as it is where the inclusion
stands, unless a later parameter has the same name. -/
theorem bindParameters_last_argument {k : Nat} {param : Parameter} {arg : Value}
    (hlast : ∀ later ∈ params.drop (k + 1), later.name ≠ param.name)
    (h : bindParameters scope params args b = .ok c) (hparam : params[k]? = some param)
    (harg : args[k]? = some arg) :
    ∃ v, arg.resolveReferences scope = .ok v ∧ c.locals.get? param.name = some v := by
  induction params generalizing args b k with
  | nil => simp at hparam
  | cons first params ih =>
    rw [bindParameters_cons] at h
    obtain ⟨v, hv, h⟩ := except_ok_of_bind h
    rw [List.drop_succ_cons] at hlast
    cases args with
    | nil => simp at harg
    | cons a args =>
      cases k with
      | zero =>
        cases hparam
        cases harg
        have hfirst : param.name ∉ params.map (·.name) := by
          intro hmem
          obtain ⟨later, hlater, hname⟩ := List.mem_map.1 hmem
          exact hlast later hlater hname
        refine ⟨v, hv, ?_⟩
        rw [bindParameters_get?_of_notMem hfirst h]
        exact Table.get?_insert_self _ _ _
      | succ k => exact ih hlast h hparam harg

theorem bindParameters_argument {k : Nat} {param : Parameter} {arg : Value}
    (hdistinct : (params.map (·.name)).Nodup)
    (h : bindParameters scope params args b = .ok c) (hparam : params[k]? = some param)
    (harg : args[k]? = some arg) :
    ∃ v, arg.resolveReferences scope = .ok v ∧ c.locals.get? param.name = some v := by
  refine bindParameters_last_argument (fun later hlater hname => ?_) h hparam harg
  obtain ⟨hk, rfl⟩ := List.getElem?_eq_some_iff.1 hparam
  have hsplit : (params.drop k).map (·.name) =
      params[k].name :: (params.drop (k + 1)).map (·.name) := by
    rw [List.drop_eq_getElem_cons hk, List.map_cons]
  have hdrop := hdistinct.sublist ((List.drop_sublist k params).map _)
  rw [hsplit, List.nodup_cons] at hdrop
  exact hdrop.1 (List.mem_map.2 ⟨later, hlater, hname⟩)

end Arguments

/-! ## Bindings without aliases -/

/-- No name is bound to a variable in the innermost frame. -/
def Scope.HasNoAlias (b : Scope) : Prop :=
  ∀ x v, b.locals.get? x = some v → ∀ target, v ≠ .reference target

section Aliases

variable {scope b : Scope} {param : Parameter} {arg : Option Value} {v : Value}

theorem Scope.get?_child (scope : Scope) (x : String) : scope.child.locals.get? x = none :=
  Table.get?_empty x

theorem Scope.hasNoAlias_child (scope : Scope) : scope.child.HasNoAlias := by
  intro x v hv
  rw [Scope.get?_child] at hv
  cases hv

theorem Scope.resolve_of_unbound {x : String} (h : b.locals.get? x = none) :
    b.resolve x = Scope.resolveIn (Limit.resolution.max - 1) b.outer x :=
  Scope.resolve_of_local h

theorem Scope.resolve_of_bound {x : String} (h : b.locals.get? x = some v)
    (hv : ∀ target, v ≠ .reference target) : b.resolve x = .ok v :=
  Scope.resolveIn_of_bound h hv _ _

theorem Scope.HasNoAlias.set (h : b.HasNoAlias) {x : String}
    (hv : ∀ target, v ≠ .reference target) : (b.set x v).HasNoAlias := by
  intro y w hw
  obtain ⟨-, rfl⟩ | ⟨-, hw⟩ := Table.of_get?_insert hw
  · exact hv
  · exact h y w hw

theorem parameterValue_ne_reference (h : parameterValue scope b param arg = .ok v)
    (target : String) : v ≠ .reference target := by
  unfold parameterValue at h
  split at h
  · exact Value.resolveReferences_ne_reference h target
  · split at h
    · exact Value.resolveReferences_ne_reference h target
    · cases h
      simp

end Aliases

/-! ## Registries -/

namespace Registry

/-- Puts a mixin in the place of those of a name, in every registry that has one. -/
def replace (layers : List Registry) (name : String) (m : Mixin) : List Registry :=
  layers.map fun r => if r.contains name then r.insert name m else r

variable {layers : List Registry} {name other : String} {m m' : Mixin}

theorem find?_replace_self (h : find? layers name = some m) :
    find? (replace layers name m') name = some m' := by
  induction layers with
  | nil => cases h
  | cons r layers ih =>
    rw [find?, List.findSome?_cons] at h
    rw [replace, List.map_cons, find?, List.findSome?_cons]
    cases hget : r.get? name with
    | some m =>
      have htaken : r.contains name = true := by rw [Table.contains, hget]; rfl
      rw [if_pos htaken, Table.get?_insert_self]
    | none =>
      have hfree : ¬ r.contains name = true := by simp [Table.contains, hget]
      rw [hget] at h
      rw [if_neg hfree, hget]
      exact ih h

theorem find?_replace_of_ne (h : other ≠ name) :
    find? (replace layers name m') other = find? layers other := by
  induction layers with
  | nil => rfl
  | cons r layers ih =>
    have hget : (if r.contains name then r.insert name m' else r).get? other = r.get? other := by
      split
      · exact Table.get?_insert_of_ne r h m'
      · rfl
    rw [replace, List.map_cons, find?, find?, List.findSome?_cons, List.findSome?_cons, hget]
    cases r.get? other with
    | some m => rfl
    | none => exact ih

end Registry

end Stylesheet
