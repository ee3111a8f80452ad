import Stylesheet.Proofs.Mixin.References

/-!
# Names that nothing refers to

What some names are bound to does not show as long as nothing that is reduced refers to them. Two
scopes that agree on all other names are the same to a value without those names, and it does not
matter which of those names a node binds.

* `Value.Avoids`: a value refers to none of some names.
* `Frame.Agrees`, `Scope.Agrees`: bindings that are the same but for those names.
* `Scope.Agrees.resolve_eq`: names are looked up alike.
* `evaluateIn_congr`, `resolveIn_congr`: values are reduced alike.
* `Node.Alike`: nodes that are the same but for what they bind those names to.
* `Node.rebind`, `Node.alike_rebind`: a node that binds other names.
-/

namespace Stylesheet

namespace Value

/-- None of the names stands in the value as a variable. -/
def Avoids (names : List String) (v : Value) : Prop := ∀ x ∈ v.references, x ∉ names

variable {names : List String}

theorem mem_allReferences {x : String} {vs : List Value} :
    x ∈ allReferences vs ↔ ∃ v ∈ vs, x ∈ v.references := by
  induction vs with
  | nil => simp [allReferences]
  | cons v vs ih => simp [allReferences, ih]

theorem avoids_allReferences {vs : List Value} (h : ∀ x ∈ allReferences vs, x ∉ names) :
    ∀ v ∈ vs, v.Avoids names :=
  fun v hv x hx => h x (mem_allReferences.2 ⟨v, hv, hx⟩)

theorem Avoids.left {left right : Value} {op : Operator}
    (h : (binary left op right).Avoids names) : left.Avoids names :=
  fun x hx => h x (List.mem_append_left _ hx)

theorem Avoids.right {left right : Value} {op : Operator}
    (h : (binary left op right).Avoids names) : right.Avoids names :=
  fun x hx => h x (List.mem_append_right _ hx)

theorem Avoids.notMem {name : String} (h : (reference name).Avoids names) : name ∉ names :=
  h name List.mem_cons_self

theorem IsAtom.avoids {v : Value} (h : v.IsAtom) : v.Avoids names := by
  cases h <;> simp [Avoids, references]

/-! ## Values with their variables replaced -/

section Replace

variable {f : String → Except CompileError (Option Value)} {bound : String → Option Value}

mutual

theorem avoids_of_mapReferences : (v : Value) → {w : Value} → v.mapReferences f = .ok w →
    (∀ x ∈ v.references, ∀ o, f x = .ok o → (o.getD (.reference x)).Avoids names) → w.Avoids names
  | .reference name, w, h, hf => by
    obtain ⟨o, ho, h⟩ := except_ok_of_bind h
    cases h
    exact hf name List.mem_cons_self o ho
  | .list items _, w, h, hf => by
    obtain ⟨ws, hws, h⟩ := except_ok_of_bind h
    cases h
    exact avoids_of_mapAllReferences items hws hf
  | .call _ args, w, h, hf => by
    obtain ⟨u, hu, h⟩ := except_ok_of_bind h
    cases h
    have hargs : u.Avoids names := avoids_of_mapReferences args hu hf
    exact hargs
  | .binary left _ right, w, h, hf => by
    obtain ⟨l, hl, h⟩ := except_ok_of_bind h
    obtain ⟨r, hr, h⟩ := except_ok_of_bind h
    cases h
    have hleft := avoids_of_mapReferences left hl fun x hx => hf x (List.mem_append_left _ hx)
    have hright := avoids_of_mapReferences right hr fun x hx => hf x (List.mem_append_right _ hx)
    exact fun x hx => (List.mem_append.1 hx).elim (hleft x) (hright x)
  | .joined parts, w, h, hf => by
    obtain ⟨ws, hws, h⟩ := except_ok_of_bind h
    cases h
    exact avoids_of_mapAllReferences parts hws hf
  | .quantity q, w, h, _ => by
    cases h
    exact (IsAtom.quantity q).avoids
  | .literal text, w, h, _ => by
    cases h
    exact (IsAtom.literal text).avoids
  | .boolean truth, w, h, _ => by
    cases h
    exact (IsAtom.boolean truth).avoids
  | .undefined name, w, h, _ => by
    cases h
    exact (IsAtom.undefined name).avoids

theorem avoids_of_mapAllReferences : (vs : List Value) → {ws : List Value} →
    mapAllReferences f vs = .ok ws →
    (∀ x ∈ allReferences vs, ∀ o, f x = .ok o → (o.getD (.reference x)).Avoids names) →
    ∀ x ∈ allReferences ws, x ∉ names
  | [], ws, h, _ => by
    cases h
    simp [allReferences]
  | v :: vs, ws, h, hf => by
    obtain ⟨u, hu, h⟩ := except_ok_of_bind h
    obtain ⟨us, hus, h⟩ := except_ok_of_bind h
    cases h
    have hv := avoids_of_mapReferences v hu fun x hx => hf x (List.mem_append_left _ hx)
    have hvs := avoids_of_mapAllReferences vs hus fun x hx => hf x (List.mem_append_right _ hx)
    exact fun x hx => (List.mem_append.1 hx).elim (hv x) (hvs x)

end

theorem avoids_resolveReferences {scope : Scope} {v w : Value}
    (h : v.resolveReferences scope = .ok w)
    (hscope : ∀ x ∈ v.references, ∀ u, scope.resolve x = .ok u → u.Avoids names) :
    w.Avoids names := by
  refine avoids_of_mapReferences v h fun x hx o ho => ?_
  cases hu : scope.resolve x with
  | error e =>
    rw [hu] at ho
    cases ho
  | ok u =>
    rw [hu] at ho
    cases ho
    exact hscope x hx u hu

mutual

theorem references_substitute : (v : Value) → (v.substitute bound).references =
    v.references.flatMap fun x => ((Value.reference x).substitute bound).references
  | .reference name => by simp [references]
  | .list items separator => by
    show references (.list (Id.run (mapAllReferences _ items)) separator) = _
    rw [references, references, allReferences_substitute items]
  | .call name args => by
    show references (.call name (args.substitute bound)) = _
    rw [references, references, references_substitute args]
  | .binary left op right => by
    show references (.binary (left.substitute bound) op (right.substitute bound)) = _
    rw [references, references, references_substitute left, references_substitute right,
      List.flatMap_append]
  | .joined parts => by
    show references (.joined (Id.run (mapAllReferences _ parts))) = _
    rw [references, references, allReferences_substitute parts]
  | .quantity _ => rfl
  | .literal _ => rfl
  | .boolean _ => rfl
  | .undefined _ => rfl

theorem allReferences_substitute : (vs : List Value) →
    allReferences (Id.run (mapAllReferences (fun name => pure (bound name)) vs)) =
      (allReferences vs).flatMap fun x => ((Value.reference x).substitute bound).references
  | [] => rfl
  | v :: vs => by
    show allReferences (v.substitute bound :: Id.run (mapAllReferences _ vs)) = _
    rw [allReferences, allReferences, references_substitute v, allReferences_substitute vs,
      List.flatMap_append]

end

theorem avoids_substitute {v : Value} (h : ∀ x ∈ v.references,
    ((Value.reference x).substitute bound).Avoids names) : (v.substitute bound).Avoids names := by
  intro x hx
  rw [references_substitute] at hx
  obtain ⟨y, hy, hx⟩ := List.mem_flatMap.1 hx
  exact h y hy x hx

end Replace

end Value

/-! ## Scopes -/

/-- All names but some are bound alike, and to values that avoid those. -/
structure Frame.Agrees (names : List String) (f g : Frame) : Prop where
  get?_eq : ∀ x, x ∉ names → f.get? x = g.get? x
  avoids : ∀ x, x ∉ names → ∀ v, f.get? x = some v → v.Avoids names

/-- The same for each frame. -/
def Scope.Agrees (names : List String) (a b : Scope) : Prop :=
  List.Forall₂ (Frame.Agrees names) a.frames b.frames

section Scopes

variable {names : List String}

theorem Frame.agrees_empty : Frame.Agrees names .empty .empty :=
  ⟨fun _ _ => rfl, fun x _ v h => by
    rw [Table.get?_empty] at h
    cases h⟩

namespace Frame.Agrees

variable {f g : Frame}

theorem insert (h : Frame.Agrees names f g) (x : String) {v : Value} (hv : v.Avoids names) :
    Frame.Agrees names (f.insert x v) (g.insert x v) := by
  refine ⟨fun y hy => ?_, fun y hy w hw => ?_⟩
  · by_cases hyx : y = x
    · rw [hyx, Table.get?_insert_self, Table.get?_insert_self]
    · rw [Table.get?_insert_of_ne _ hyx, Table.get?_insert_of_ne _ hyx]
      exact h.get?_eq y hy
  · obtain ⟨-, rfl⟩ | ⟨-, hw⟩ := Table.of_get?_insert hw
    · exact hv
    · exact h.avoids y hy w hw

theorem symm (h : Frame.Agrees names f g) : Frame.Agrees names g f :=
  ⟨fun x hx => (h.get?_eq x hx).symm, fun x hx v hv => h.avoids x hx v ((h.get?_eq x hx).trans hv)⟩

/-- One of the names may be bound to anything. -/
theorem insert_left (h : Frame.Agrees names f g) {x : String} (hx : x ∈ names) (v : Value) :
    Frame.Agrees names (f.insert x v) g := by
  refine ⟨fun y hy => ?_, fun y hy w hw => ?_⟩
  · rw [Table.get?_insert_of_ne _ (ne_of_mem_of_not_mem hx hy).symm]
    exact h.get?_eq y hy
  · rw [Table.get?_insert_of_ne _ (ne_of_mem_of_not_mem hx hy).symm] at hw
    exact h.avoids y hy w hw

end Frame.Agrees

namespace Scope.Agrees

variable {a b : Scope}

theorem symm (h : Scope.Agrees names a b) : Scope.Agrees names b a :=
  h.flip.imp fun _ _ hframe => hframe.symm

theorem locals (h : Scope.Agrees names a b) : Frame.Agrees names a.locals b.locals :=
  (List.forall₂_cons.1 h).1

theorem outer (h : Scope.Agrees names a b) :
    List.Forall₂ (Frame.Agrees names) a.outer b.outer :=
  (List.forall₂_cons.1 h).2

theorem child (h : Scope.Agrees names a b) : Scope.Agrees names a.child b.child :=
  .cons Frame.agrees_empty h

theorem set (h : Scope.Agrees names a b) (x : String) {v : Value} (hv : v.Avoids names) :
    Scope.Agrees names (a.set x v) (b.set x v) :=
  .cons (h.locals.insert x hv) h.outer

theorem set_left (h : Scope.Agrees names a b) {x : String} (hx : x ∈ names) (v : Value) :
    Scope.Agrees names (a.set x v) b :=
  .cons (h.locals.insert_left hx v) h.outer

theorem set_right (h : Scope.Agrees names a b) {x : String} (hx : x ∈ names) (v : Value) :
    Scope.Agrees names a (b.set x v) :=
  (h.symm.set_left hx v).symm

theorem lookup_eq (h : Scope.Agrees names a b) {x : String} (hx : x ∉ names) :
    a.lookup x = b.lookup x := by
  unfold Scope.lookup
  unfold Scope.Agrees at h
  generalize a.frames = fs, b.frames = gs at h
  induction h with
  | nil => rfl
  | cons hframe _ ih => rw [List.findSome?_cons, List.findSome?_cons, hframe.get?_eq x hx, ih]

theorem assign (h : Scope.Agrees names a b) {x : Assignment} (hname : x.name ∉ names)
    (hvalue : x.value.Avoids names) : Scope.Agrees names (a.assign x) (b.assign x) := by
  unfold Scope.assign Scope.setDefault
  rw [h.lookup_eq hname]
  split
  · split
    · exact h
    · exact h.set _ hvalue
  · exact h.set _ hvalue

theorem assign_left (h : Scope.Agrees names a b) {x : Assignment} (hname : x.name ∈ names) :
    Scope.Agrees names (a.assign x) b := by
  unfold Scope.assign Scope.setDefault
  split
  · split
    · exact h
    · exact h.set_left hname _
  · exact h.set_left hname _

theorem assign_right (h : Scope.Agrees names a b) {x : Assignment} (hname : x.name ∈ names) :
    Scope.Agrees names a (b.assign x) :=
  (h.symm.assign_left hname).symm

/-- An alias leads from a name that is not hidden to another one. -/
theorem resolveIn_eq {fs gs : List Frame} (h : List.Forall₂ (Frame.Agrees names) fs gs) {x : String}
    (hx : x ∉ names) (steps : Nat) :
    Scope.resolveIn steps fs x = Scope.resolveIn steps gs x ∧
      ∀ v, Scope.resolveIn steps fs x = .ok v → v.Avoids names := by
  induction steps generalizing fs gs x with
  | zero =>
    cases h with
    | nil =>
      refine ⟨rfl, fun v hv => ?_⟩
      cases hv
      exact (Value.IsAtom.undefined x).avoids
    | cons => exact ⟨rfl, fun v hv => by cases hv⟩
  | succ steps ih =>
    cases h with
    | nil =>
      refine ⟨rfl, fun v hv => ?_⟩
      cases hv
      exact (Value.IsAtom.undefined x).avoids
    | @cons f g fs gs hframe hrest =>
      rw [Scope.resolveIn, Scope.resolveIn, ← hframe.get?_eq x hx]
      cases hget : f.get? x with
      | none => exact ih hrest hx
      | some v =>
        have hv := hframe.avoids x hx v hget
        cases v with
        | reference target =>
          dsimp only
          split
          · exact ⟨rfl, fun v hv => by cases hv⟩
          · exact ih (.cons hframe hrest) hv.notMem
        | _ =>
          refine ⟨rfl, fun w hw => ?_⟩
          cases hw
          exact hv

theorem resolve_eq (h : Scope.Agrees names a b) {x : String} (hx : x ∉ names) :
    a.resolve x = b.resolve x :=
  (resolveIn_eq h hx _).1

theorem resolve_avoids (h : Scope.Agrees names a b) {x : String} (hx : x ∉ names) {v : Value}
    (hv : a.resolve x = .ok v) : v.Avoids names :=
  (resolveIn_eq h hx _).2 v hv

end Scope.Agrees

end Scopes

/-! ## Reduction -/

section Reduction

variable {names : List String} {functions : FunctionTable} {a b : Scope}

theorem congruence_eq :
    Congruence fun α (f : Unit → Metered α) (g : Metered α) => f () = g :=
  ⟨fun _ => rfl, fun h h' => congr (congrArg Bind.bind h) (funext h')⟩

theorem IsArgument.avoids {args v : Value} (h : IsArgument args v) (hargs : args.Avoids names) :
    v.Avoids names := by
  induction h with
  | item hw _ ih => exact ih (Value.avoids_allReferences hargs _ hw)
  | reference name => exact hargs
  | binary left op right => exact hargs

theorem ofExcept_bind_congr {α β : Type} {o : Except CompileError α} {f g : α → Metered β}
    (h : ∀ a, o = .ok a → f a = g a) : (Metered.ofExcept o >>= f) = (Metered.ofExcept o >>= g) := by
  cases o with
  | error e => rfl
  | ok a => exact h a rfl

theorem evaluateIn_congr (h : Scope.Agrees names a b) (n : Nat) {v : Value} (hv : v.Avoids names) :
    evaluateIn functions a n v = evaluateIn functions b n v := by
  induction n generalizing v with
  | zero => rfl
  | succ n ih =>
    refine congrArg Metered.nested ?_
    cases v with
    | reference name =>
      simp only [evaluateBy]
      rw [h.resolve_eq hv.notMem]
      refine ofExcept_bind_congr fun w hw => ih ?_
      rw [← h.resolve_eq hv.notMem] at hw
      exact h.resolve_avoids hv.notMem hw
    | binary left op right =>
      simp only [evaluateBy]
      rw [ih hv.left, ih hv.right]
    | call name args =>
      exact congruence_eq.callBy (f := fun _ => _) fun _ w hw => ih (hw.avoids hv)
    | _ => simp only [evaluateBy]

theorem resolveIn_congr (h : Scope.Agrees names a b) (n : Nat) {v : Value} (hv : v.Avoids names) :
    resolveIn functions a n v = resolveIn functions b n v := by
  induction n generalizing v with
  | zero => rfl
  | succ n ih =>
    have hitems {vs : List Value} (hvs : ∀ x ∈ Value.allReferences vs, x ∉ names) :
        vs.mapM (resolveIn functions a n) = vs.mapM (resolveIn functions b n) :=
      congruence_eq.mapM (f := fun _ => _) fun w hw => ih (Value.avoids_allReferences hvs w hw)
    refine congrArg Metered.nested ?_
    cases v with
    | reference name =>
      simp only [resolveBy]
      rw [h.resolve_eq hv.notMem]
      refine ofExcept_bind_congr fun w hw => ih ?_
      rw [← h.resolve_eq hv.notMem] at hw
      exact h.resolve_avoids hv.notMem hw
    | binary left op right => exact evaluateIn_congr h levels hv
    | call name args =>
      have hcall : callBy functions (evaluate functions a) name args =
          callBy functions (evaluate functions b) name args :=
        congruence_eq.callBy (f := fun _ => _) fun _ w hw => evaluateIn_congr h levels (hw.avoids hv)
      have hargs : resolveIn functions a n args = resolveIn functions b n args := ih hv
      simp only [resolveBy]
      rw [hcall, hargs]
    | list items separator =>
      simp only [resolveBy]
      rw [hitems hv]
    | joined parts =>
      simp only [resolveBy]
      rw [hitems hv]
    | _ => simp only [resolveBy]

end Reduction

/-! ## Nodes -/

theorem Head.isEvaluated_mapValues {P Q : Value → Prop} {f : Value → Value}
    (hf : ∀ v, P v → Q (f v)) {head : Head} (h : head.IsEvaluated P) :
    (head.mapValues f).IsEvaluated Q := by
  cases head with
  | style selector depth =>
    intro alt halt v hv
    obtain ⟨alt', halt', rfl⟩ := List.mem_map.1 halt
    obtain ⟨piece, hpiece, hv⟩ := List.mem_map.1 hv
    cases piece with
    | value w =>
      cases hv
      exact hf w (h alt' halt' w hpiece)
    | word text => cases hv
    | space => cases hv
    | parent => cases hv
  | _ => trivial

namespace Node

section Alike

variable (names : List String) (P : Value → Prop)

mutual

/-- The nodes are the same, and the values in them have a property, except that either may bind any
of the names, to any value. -/
inductive Alike : Node → Node → Prop
  | block (head : Head) {body body' : List Node} :
    head.IsEvaluated P → AllAlike body body' → Alike (.block head body) (.block head body')
  | declaration (d : Declaration) : P d.value → Alike (.declaration d) (.declaration d)
  | assignment (a : Assignment) :
    a.name ∉ names → P a.value → Alike (.assignment a) (.assignment a)
  | rebinding {a b : Assignment} :
    a.name ∈ names → b.name ∈ names → Alike (.assignment a) (.assignment b)
  | inclusion (i : Inclusion) : (∀ v ∈ i.args, P v) → Alike (.inclusion i) (.inclusion i)
  | branch {condition : Value} {body body' otherwise otherwise' : List Node} :
    P condition → AllAlike body body' → AllAlike otherwise otherwise' →
    Alike (.branch condition body otherwise) (.branch condition body' otherwise')
  | loop {counter counter' : String} {first last : Value} (inclusive : Bool)
    {body body' : List Node} : counter' = counter ∨ counter ∈ names ∧ counter' ∈ names →
    P first → P last → AllAlike body body' →
    Alike (.loop counter first last inclusive body) (.loop counter' first last inclusive body')
  | statement (name prelude : String) : Alike (.statement name prelude) (.statement name prelude)
  | importRule (url : String) : Alike (.importRule url) (.importRule url)
  | comment (text : String) : Alike (.comment text) (.comment text)
  | mixin (name : String) (params : List Parameter) (body : List Node) :
    Alike (.mixin name params body) (.mixin name params body)

inductive AllAlike : List Node → List Node → Prop
  | nil : AllAlike [] []
  | cons {node node' : Node} {nodes nodes' : List Node} :
    Alike node node' → AllAlike nodes nodes' → AllAlike (node :: nodes) (node' :: nodes')

end

end Alike

variable {names : List String} {P Q : Value → Prop}

theorem AllAlike.append {ns ns' ms ms' : List Node} (hms : AllAlike names P ms ms') :
    AllAlike names P ns ns' → AllAlike names P (ns ++ ms) (ns' ++ ms')
  | .nil => hms
  | .cons h hs => .cons h (AllAlike.append hms hs)

mutual

theorem Alike.mapValues {f : Value → Value} (hf : ∀ v, P v → Q (f v)) {node node' : Node} :
    Alike names P node node' → Alike names Q (node.mapValues f) (node'.mapValues f)
  | .block _ hhead hbody =>
    .block _ (Head.isEvaluated_mapValues hf hhead) (AllAlike.mapAllValues hf hbody)
  | .declaration d h => .declaration _ (hf d.value h)
  | .assignment a hname h => .assignment _ hname (hf a.value h)
  | .rebinding ha hb => .rebinding ha hb
  | .inclusion i h => .inclusion _ fun v hv => by
    obtain ⟨w, hw, rfl⟩ := Option.mem_map.1 hv
    exact hf w (h w hw)
  | .branch hcondition hbody hotherwise => .branch (hf _ hcondition)
    (AllAlike.mapAllValues hf hbody) (AllAlike.mapAllValues hf hotherwise)
  | .loop inclusive hcounter hfirst hlast hbody =>
    .loop inclusive hcounter (hf _ hfirst) (hf _ hlast) (AllAlike.mapAllValues hf hbody)
  | .statement name prelude => .statement name prelude
  | .importRule url => .importRule url
  | .comment text => .comment text
  | .mixin name params body => .mixin name params body

theorem AllAlike.mapAllValues {f : Value → Value} (hf : ∀ v, P v → Q (f v))
    {nodes nodes' : List Node} :
    AllAlike names P nodes nodes' → AllAlike names Q (mapAllValues f nodes) (mapAllValues f nodes')
  | .nil => .nil
  | .cons h hs => .cons (Alike.mapValues hf h) (AllAlike.mapAllValues hf hs)

end

mutual

/-- The node with the names that it binds replaced, but none of its variables. -/
def rebind (ρ : String → String) : Node → Node
  | .assignment a => .assignment { a with name := ρ a.name }
  | .loop counter first last inclusive body =>
    .loop (ρ counter) first last inclusive (rebindAll ρ body)
  | .block head body => .block head (rebindAll ρ body)
  | .branch condition body otherwise =>
    .branch condition (rebindAll ρ body) (rebindAll ρ otherwise)
  | .statement name prelude => .statement name prelude
  | .importRule url => .importRule url
  | .declaration d => .declaration d
  | .comment text => .comment text
  | .mixin name params body => .mixin name params body
  | .inclusion i => .inclusion i

def rebindAll (ρ : String → String) : List Node → List Node
  | [] => []
  | n :: ns => rebind ρ n :: rebindAll ρ ns

end

mutual

theorem rebind_id : (node : Node) → node.rebind id = node
  | .assignment _ => rfl
  | .loop _ _ _ _ body => by rw [rebind, rebindAll_id body]; rfl
  | .block _ body => by rw [rebind, rebindAll_id body]
  | .branch _ body otherwise => by rw [rebind, rebindAll_id body, rebindAll_id otherwise]
  | .statement _ _ => rfl
  | .importRule _ => rfl
  | .declaration _ => rfl
  | .comment _ => rfl
  | .mixin _ _ _ => rfl
  | .inclusion _ => rfl

theorem rebindAll_id : (nodes : List Node) → rebindAll id nodes = nodes
  | [] => rfl
  | node :: nodes => by rw [rebindAll, rebind_id node, rebindAll_id nodes]

end

/-- A replacement of the names by one another. -/
structure Hides (names : List String) (ρ : String → String) : Prop where
  mem : ∀ x ∈ names, ρ x ∈ names
  eq_self : ∀ x, x ∉ names → ρ x = x

mutual

theorem alike_rebind {ρ : String → String} (hρ : Hides names ρ) : (node : Node) → Each P node →
    Alike names P node (node.rebind ρ)
  | .assignment a, h => by
    by_cases hname : a.name ∈ names
    · exact .rebinding hname (hρ.mem _ hname)
    · rw [rebind, hρ.eq_self _ hname]
      exact .assignment a hname h
  | .loop counter _ _ inclusive body, h => by
    have hcounter : ρ counter = counter ∨ counter ∈ names ∧ ρ counter ∈ names := by
      by_cases hname : counter ∈ names
      · exact .inr ⟨hname, hρ.mem _ hname⟩
      · exact .inl (hρ.eq_self _ hname)
    exact .loop inclusive hcounter h.1 h.2.1 (alike_rebindAll hρ body h.2.2)
  | .block head body, h => .block head h.1 (alike_rebindAll hρ body h.2)
  | .branch _ body otherwise, h =>
    .branch h.1 (alike_rebindAll hρ body h.2.1) (alike_rebindAll hρ otherwise h.2.2)
  | .statement name prelude, _ => .statement name prelude
  | .importRule url, _ => .importRule url
  | .declaration d, h => .declaration d h
  | .comment text, _ => .comment text
  | .mixin name params body, _ => .mixin name params body
  | .inclusion i, h => .inclusion i h

theorem alike_rebindAll {ρ : String → String} (hρ : Hides names ρ) : (nodes : List Node) →
    AllEach P nodes → AllAlike names P nodes (rebindAll ρ nodes)
  | [], _ => .nil
  | node :: nodes, h => .cons (alike_rebind hρ node h.1) (alike_rebindAll hρ nodes h.2)

end

theorem allAlike_self {nodes : List Node} (h : AllEach P nodes) : AllAlike names P nodes nodes := by
  have halike : AllAlike names P nodes (rebindAll id nodes) :=
    alike_rebindAll ⟨fun _ hx => hx, fun _ _ => rfl⟩ nodes h
  rwa [rebindAll_id] at halike

end Node

end Stylesheet
