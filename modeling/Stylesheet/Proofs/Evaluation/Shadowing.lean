import Stylesheet.Proofs.Evaluation.Congruence
import Stylesheet.Proofs.Evaluation.Reduced

/-!
# Variables in a child scope

An alias is followed from the frame that it was found in, but any other binding is handed out as it
is, and the variables in it are looked up where it is used. So what a name of an outer scope stands
for in a child scope depends on those names that are looked up in this way, and on no others.

* `LooksUp`: the names that are looked up in a scope when a value is reduced there.
* `Follows`: work in a child scope that does the same as work in the scope around it, unless the one
  frame more uses up the steps of a lookup.
* `follows_resolveIn`: reducing a value none of whose names is bound in the child scope.
* `fails_of_looksUp`: a child scope that binds one of the names to itself.
* `resolve_reference_in_child`: both for the value of a variable.
-/

namespace Stylesheet

/-! ## Lookup with one frame more -/

namespace Scope

theorem resolveIn_succ (steps : Nat) (frames : List Frame) (name : String) :
    resolveIn (steps + 1) frames name = resolveIn steps frames name ∨
      ∃ detail, resolveIn steps frames name = .error (.limitExceeded .resolution detail) := by
  induction steps generalizing frames name with
  | zero =>
    cases frames with
    | nil => exact .inl rfl
    | cons frame outer => exact .inr ⟨_, rfl⟩
  | succ steps ih =>
    cases frames with
    | nil => exact .inl rfl
    | cons frame outer =>
      rw [resolveIn, resolveIn]
      split
      · split
        · exact .inl rfl
        · exact ih _ _
      · exact .inl rfl
      · exact ih _ _

theorem resolve_of_local {locals : Frame} {outer : List Frame} {x : String}
    (h : locals.get? x = none) :
    resolve ⟨locals, outer⟩ x = resolveIn (Limit.resolution.max - 1) outer x := by
  have hmax : Limit.resolution.max = Limit.resolution.max - 1 + 1 := rfl
  unfold resolve
  rw [hmax, frames, resolveIn, h]
  rfl

theorem resolve_child {locals : Frame} (s : Scope) {x : String} (h : locals.get? x = none) :
    resolve ⟨locals, s.frames⟩ x = s.resolve x ∨
      ∃ detail, resolve ⟨locals, s.frames⟩ x = .error (.limitExceeded .resolution detail) := by
  rw [resolve_of_local h]
  exact (resolveIn_succ _ s.frames x).imp_left Eq.symm

theorem resolve_self {locals : Frame} (outer : List Frame) {x : String}
    (h : locals.get? x = some (.reference x)) :
    resolve ⟨locals, outer⟩ x = .error (.selfReference x) := by
  have hmax : Limit.resolution.max = Limit.resolution.max - 1 + 1 := rfl
  unfold resolve
  rw [hmax, frames, resolveIn, h]
  simp

end Scope

/-! ## Names that are looked up -/

/-- The two ways to reduce a value. -/
inductive Reduction where
  | evaluate
  | resolve

/-- Reducing the value in the scope looks the name up. -/
inductive LooksUp (functions : FunctionTable) (scope : Scope) :
    Reduction → Value → String → Prop
  | name (way : Reduction) (x : String) : LooksUp functions scope way (.reference x) x
  | bound {way : Reduction} {x y : String} {v : Value} : scope.resolve x = .ok v →
    LooksUp functions scope way v y → LooksUp functions scope way (.reference x) y
  | left {way : Reduction} {l r : Value} {op : Operator} {y : String} :
    LooksUp functions scope .evaluate l y → LooksUp functions scope way (.binary l op r) y
  | right {way : Reduction} {l r : Value} {op : Operator} {y : String} :
    LooksUp functions scope .evaluate r y → LooksUp functions scope way (.binary l op r) y
  | argument {way : Reduction} {name : String} {args v : Value} {y : String} :
    functions.contains name = true → IsArgument args v → LooksUp functions scope .evaluate v y →
    LooksUp functions scope way (.call name args) y
  | passed {name : String} {args : Value} {y : String} : functions.contains name = false →
    LooksUp functions scope .resolve args y → LooksUp functions scope .resolve (.call name args) y
  | item {items : List Value} {separator : Separator} {v : Value} {y : String} : v ∈ items →
    LooksUp functions scope .resolve v y →
    LooksUp functions scope .resolve (.list items separator) y
  | part {parts : List Value} {v : Value} {y : String} : v ∈ parts →
    LooksUp functions scope .resolve v y → LooksUp functions scope .resolve (.joined parts) y

/-! ## Work that does the same -/

/-- The first work does what the second does, unless a lookup in it takes too many steps. -/
def Follows {α : Type} (f g : Metered α) : Prop :=
  ∀ s, f s = g s ∨ ∃ detail t, f s = (.error (.limitExceeded .resolution detail), t)

namespace Follows

variable {α β : Type} {f g : Metered α} {k l : α → Metered β}

theorem refl (f : Metered α) : Follows f f := fun _ => .inl rfl

theorem bind (h : Follows f g) (hk : ∀ a, Follows (k a) (l a)) : Follows (f >>= k) (g >>= l) := by
  intro s
  rcases h s with heq | ⟨detail, t, hlimit⟩
  · rcases hg : g s with ⟨o, t⟩
    rw [hg] at heq
    cases o with
    | error e => exact .inl ((work_bind_error heq).trans (work_bind_error hg).symm)
    | ok a =>
      rw [work_bind_ok heq, work_bind_ok hg]
      exact hk a t
  · exact .inr ⟨detail, t, work_bind_error hlimit⟩

theorem nested (h : Follows f g) : Follows (Metered.nested f) (Metered.nested g) := by
  intro s
  by_cases hdepth : s.depth < Limit.evaluationDepth.max
  · rw [Metered.nested, Metered.nested, Metered.descend_ok hdepth]
    rcases h { s with depth := s.depth + 1 } with heq | ⟨detail, t, hlimit⟩
    · exact .inl (by simp only [heq])
    · exact .inr ⟨detail, (Metered.ascend t).2, by simp only [hlimit]⟩
  · rw [Metered.nested, Metered.nested, Metered.descend_error (Nat.le_of_not_lt hdepth)]
    exact .inl rfl

theorem bind_ofExcept {o p : Except CompileError α}
    (h : o = p ∨ ∃ detail, o = .error (.limitExceeded .resolution detail))
    (hk : ∀ a, p = .ok a → Follows (k a) (l a)) :
    Follows (Metered.ofExcept o >>= k) (Metered.ofExcept p >>= l) := by
  rcases h with rfl | ⟨detail, rfl⟩
  · cases o with
    | error e => exact fun _ => .inl rfl
    | ok a => exact hk a rfl
  · exact fun s => .inr ⟨detail, s, rfl⟩

theorem congruence :
    Congruence fun α (f : Unit → Metered α) (g : Metered α) => Follows (f ()) g :=
  ⟨fun _ => refl _, fun h hnext => h.bind hnext⟩

end Follows

section Child

variable {functions : FunctionTable} {s : Scope} {locals : Frame}

theorem follows_evaluateIn (n : Nat) (v : Value)
    (h : ∀ y, LooksUp functions s .evaluate v y → locals.get? y = none) :
    Follows (evaluateIn functions ⟨locals, s.frames⟩ n v) (evaluateIn functions s n v) := by
  induction n generalizing v with
  | zero => exact .refl _
  | succ n ih =>
    refine Follows.nested ?_
    cases v with
    | reference x =>
      have hx := Scope.resolve_child s (h x (.name _ x))
      exact .bind_ofExcept hx fun w hw => ih w fun y hy => h y (.bound hw hy)
    | binary l op r =>
      have hl := ih l fun y hy => h y (.left hy)
      have hr := ih r fun y hy => h y (.right hy)
      exact hl.bind fun a => hr.bind fun b => .refl _
    | call name args =>
      exact Follows.congruence.callBy (f := fun _ => _) fun hname v hv =>
        ih v fun y hy => h y (.argument hname hv hy)
    | quantity _ => exact .refl (pure _)
    | literal _ => exact .refl (pure _)
    | list _ _ => exact .refl (pure _)
    | joined _ => exact .refl (pure _)
    | boolean _ => exact .refl (pure _)
    | undefined _ => exact .refl (pure _)

theorem follows_resolveIn (n : Nat) (v : Value)
    (h : ∀ y, LooksUp functions s .resolve v y → locals.get? y = none) :
    Follows (resolveIn functions ⟨locals, s.frames⟩ n v) (resolveIn functions s n v) := by
  induction n generalizing v with
  | zero => exact .refl _
  | succ n ih =>
    refine Follows.nested ?_
    cases v with
    | reference x =>
      have hx := Scope.resolve_child s (h x (.name _ x))
      exact .bind_ofExcept hx fun w hw => ih w fun y hy => h y (.bound hw hy)
    | binary l op r =>
      refine follows_evaluateIn levels (.binary l op r) fun y hy => h y ?_
      cases hy with
      | left hy => exact .left hy
      | right hy => exact .right hy
    | call name args =>
      cases hname : functions.contains name with
      | true =>
        rw [resolveBy_call_of_contains hname, resolveBy_call_of_contains hname]
        exact Follows.congruence.callBy (f := fun _ => _) fun _ v hv =>
          follows_evaluateIn levels v fun y hy => h y (.argument hname hv hy)
      | false =>
        rw [resolveBy_call_of_not_contains hname, resolveBy_call_of_not_contains hname]
        exact (ih args fun y hy => h y (.passed hname hy)).bind fun w => .refl _
    | list items separator =>
      have hitems := Follows.congruence.mapM (f := fun _ => _) fun v hv =>
        ih v fun y hy => h y (.item hv hy)
      exact hitems.bind fun w => .refl _
    | joined parts =>
      have hparts := Follows.congruence.mapM (f := fun _ => _) fun v hv =>
        ih v fun y hy => h y (.part hv hy)
      exact hparts.bind fun w => .refl _
    | quantity _ => exact .refl (pure _)
    | literal _ => exact .refl (pure _)
    | boolean _ => exact .refl (pure _)
    | undefined _ => exact .refl (pure _)

end Child

/-! ## A name bound to itself -/

section Fails

variable {α β : Type} {s t : Session}

theorem exists_gives_of_mapM {f : α → Metered β} {items : List α} {out : List β}
    (h : Gives (items.mapM f) s out t) {a : α} (ha : a ∈ items) :
    ∃ s b t, Gives (f a) s b t := by
  induction items generalizing out s t with
  | nil => cases ha
  | cons c items ih =>
    rw [List.mapM_cons] at h
    obtain ⟨b, u, hb, h⟩ := h.of_bind
    obtain ⟨bs, v, hbs, -⟩ := h.of_bind
    rcases List.mem_cons.1 ha with rfl | ha
    · exact ⟨s, b, u, hb⟩
    · exact ih hbs ha

theorem exists_gives_of_allArgumentsBy {f : Value → Metered Value} {items : List Value}
    {out : List Value} (h : Gives (allArgumentsBy f items) s out t) {w : Value} (hw : w ∈ items) :
    ∃ s out t, Gives (argumentsBy f w) s out t := by
  induction items generalizing out s t with
  | nil => cases hw
  | cons u items ih =>
    rw [allArgumentsBy] at h
    obtain ⟨args, v, hargs, h⟩ := h.of_bind
    obtain ⟨more, v', hmore, -⟩ := h.of_bind
    rcases List.mem_cons.1 hw with rfl | hw
    · exact ⟨s, args, v, hargs⟩
    · exact ih hmore hw

theorem exists_gives_of_argumentsBy {f : Value → Metered Value} {args v : Value}
    (hv : IsArgument args v) {out : List Value} (h : Gives (argumentsBy f args) s out t) :
    ∃ s w t, Gives (f v) s w t := by
  induction hv generalizing s out t with
  | item hw _ ih =>
    rw [argumentsBy] at h
    obtain ⟨s', out', t', h⟩ := exists_gives_of_allArgumentsBy h hw
    exact ih h
  | reference name =>
    rw [argumentsBy] at h
    obtain ⟨w, u, hw, -⟩ := h.of_bind
    exact ⟨s, w, u, hw⟩
  | binary l op r =>
    rw [argumentsBy] at h
    obtain ⟨w, u, hw, -⟩ := h.of_bind
    exact ⟨s, w, u, hw⟩

theorem exists_gives_of_callBy {functions : FunctionTable} {f : Value → Metered Value}
    {name : String} {args v w : Value} (hv : IsArgument args v)
    (h : Gives (callBy functions f name args) s w t) : ∃ s u t, Gives (f v) s u t := by
  unfold callBy at h
  split at h
  · obtain ⟨values, u, hvalues, -⟩ := h.of_bind
    exact exists_gives_of_argumentsBy hv hvalues
  · cases h

end Fails

section Self

variable {functions : FunctionTable} {scope : Scope} {locals : Frame} {y : String}

def Reduction.run (functions : FunctionTable) (scope : Scope) :
    Reduction → Nat → Value → Metered Value
  | .evaluate => evaluateIn functions scope
  | .resolve => resolveIn functions scope

/-- A variable that is reduced is looked up, and what it stands for is reduced. -/
theorem Reduction.of_gives_reference {way : Reduction} {n : Nat} {x : String} {s t : Session}
    {w : Value} (h : Gives (way.run functions scope n (.reference x)) s w t) :
    ∃ v m s t, scope.resolve x = .ok v ∧ Gives (way.run functions scope m v) s w t := by
  cases n with
  | zero => cases way <;> cases h
  | succ n =>
    cases way with
    | evaluate =>
      obtain ⟨-, u, h⟩ := Metered.of_gives_nested h
      obtain ⟨v, t', hv, h⟩ := h.of_bind
      exact ⟨v, n, _, _, (Metered.of_gives_ofExcept hv).1, h⟩
    | resolve =>
      obtain ⟨-, u, h⟩ := Metered.of_gives_nested h
      obtain ⟨v, t', hv, h⟩ := h.of_bind
      exact ⟨v, n, _, _, (Metered.of_gives_ofExcept hv).1, h⟩

/-- An expression is evaluated whichever way it is reduced. -/
theorem Reduction.of_gives_binary {way : Reduction} {n : Nat} {l r : Value} {op : Operator}
    {s t : Session} {w : Value} (h : Gives (way.run functions scope n (.binary l op r)) s w t) :
    (∃ a m s t, Gives (evaluateIn functions scope m l) s a t) ∧
      ∃ a m s t, Gives (evaluateIn functions scope m r) s a t := by
  have hevaluate : ∀ {n : Nat} {s t : Session},
      Gives (evaluateIn functions scope n (.binary l op r)) s w t →
      (∃ a m s t, Gives (evaluateIn functions scope m l) s a t) ∧
        ∃ a m s t, Gives (evaluateIn functions scope m r) s a t := by
    intro n s t h
    cases n with
    | zero => cases h
    | succ n =>
      obtain ⟨-, u, h⟩ := Metered.of_gives_nested h
      obtain ⟨a, t₁, ha, h⟩ := h.of_bind
      obtain ⟨b, t₂, hb, -⟩ := h.of_bind
      exact ⟨⟨a, n, _, _, ha⟩, b, n, _, _, hb⟩
  cases way with
  | evaluate => exact hevaluate h
  | resolve =>
    cases n with
    | zero => cases h
    | succ n =>
      have hnested :
          Gives (Metered.nested (Stylesheet.evaluate functions scope (.binary l op r))) s w t := h
      obtain ⟨-, u, h⟩ := Metered.of_gives_nested hnested
      exact hevaluate h

/-- The arguments of a function that is known are evaluated whichever way its call is reduced. -/
theorem Reduction.of_gives_call {way : Reduction} {n : Nat} {name : String} {args v : Value}
    (hname : functions.contains name = true) (hv : IsArgument args v) {s t : Session} {w : Value}
    (h : Gives (way.run functions scope n (.call name args)) s w t) :
    ∃ a m s t, Gives (evaluateIn functions scope m v) s a t := by
  cases n with
  | zero => cases way <;> cases h
  | succ n =>
    cases way with
    | evaluate =>
      obtain ⟨-, u, h⟩ := Metered.of_gives_nested h
      obtain ⟨s', a, t', h⟩ := exists_gives_of_callBy hv h
      exact ⟨a, n, s', t', h⟩
    | resolve =>
      have hnested : Gives (Metered.nested (if functions.contains name then
          call functions scope name args
          else do return .call name (← resolveIn functions scope n args))) s w t := h
      rw [if_pos hname] at hnested
      obtain ⟨-, u, h⟩ := Metered.of_gives_nested hnested
      obtain ⟨s', a, t', h⟩ := exists_gives_of_callBy hv h
      exact ⟨a, levels, s', t', h⟩

/-- Where a name is bound to itself, no value that looks it up is reduced. -/
theorem fails_of_looksUp {way : Reduction} {v : Value} (h : LooksUp functions scope way v y)
    (hself : locals.get? y = some (.reference y)) (hother : ∀ z, z ≠ y → locals.get? z = none)
    (n : Nat) (s t : Session) (w : Value) :
    ¬ Gives (way.run functions ⟨locals, scope.frames⟩ n v) s w t := by
  intro hgives
  induction h generalizing n s t w with
  | name way x =>
    obtain ⟨v, -, -, -, hx, -⟩ := Reduction.of_gives_reference hgives
    rw [Scope.resolve_self scope.frames hself] at hx
    cases hx
  | @bound way x y v hx _ ih =>
    obtain ⟨u, m, s', t', hu, h⟩ := Reduction.of_gives_reference hgives
    -- Only a name that the child scope does not bind can have been looked up without failing.
    by_cases hxy : x = y
    · subst hxy
      rw [Scope.resolve_self scope.frames hself] at hu
      cases hu
    · rcases Scope.resolve_child scope (hother x hxy) with heq | ⟨detail, hlimit⟩
      · rw [heq, hx] at hu
        cases hu
        exact ih hself hother m s' t' w h
      · rw [hlimit] at hu
        cases hu
  | left _ ih =>
    obtain ⟨⟨a, m, s', t', h⟩, -⟩ := Reduction.of_gives_binary hgives
    exact ih hself hother m s' t' a h
  | right _ ih =>
    obtain ⟨-, a, m, s', t', h⟩ := Reduction.of_gives_binary hgives
    exact ih hself hother m s' t' a h
  | argument hname hv _ ih =>
    obtain ⟨a, m, s', t', h⟩ := Reduction.of_gives_call hname hv hgives
    exact ih hself hother m s' t' a h
  | @passed name args y hname _ ih =>
    cases n with
    | zero => cases hgives
    | succ n =>
      have hnested : Gives (Metered.nested (if functions.contains name then
          call functions ⟨locals, scope.frames⟩ name args
          else do return .call name (← resolveIn functions ⟨locals, scope.frames⟩ n args))) s w t :=
        hgives
      rw [if_neg (by simp [hname])] at hnested
      obtain ⟨-, u, h⟩ := Metered.of_gives_nested hnested
      obtain ⟨a, t', h, -⟩ := h.of_bind
      exact ih hself hother n _ _ a h
  | item hv _ ih =>
    cases n with
    | zero => cases hgives
    | succ n =>
      obtain ⟨-, u, h⟩ := Metered.of_gives_nested hgives
      obtain ⟨vs, t', h, -⟩ := h.of_bind
      obtain ⟨s', a, t', h⟩ := exists_gives_of_mapM h hv
      exact ih hself hother n s' t' a h
  | part hv _ ih =>
    cases n with
    | zero => cases hgives
    | succ n =>
      obtain ⟨-, u, h⟩ := Metered.of_gives_nested hgives
      obtain ⟨vs, t', h, -⟩ := h.of_bind
      obtain ⟨s', a, t', h⟩ := exists_gives_of_mapM h hv
      exact ih hself hother n s' t' a h

end Self

/-! ## Variables of the scope around -/

/-- In a child scope a variable of the scope around it stands for the same as there, unless the
child scope binds a name that is looked up on the way or the one frame more exceeds the steps of a
lookup. Each of those names matters: a child scope that binds only it can make the variable
fail. -/
theorem resolve_reference_in_child (functions : FunctionTable) (s : Scope) (x : String)
    (session : Session) :
    (∀ locals : Frame,
      (∀ y, LooksUp functions s .resolve (.reference x) y → locals.get? y = none) →
      resolve functions ⟨locals, s.frames⟩ (.reference x) session =
          resolve functions s (.reference x) session ∨
        ∃ detail t, resolve functions ⟨locals, s.frames⟩ (.reference x) session =
          (.error (.limitExceeded .resolution detail), t)) ∧
    ∀ y, LooksUp functions s .resolve (.reference x) y → y ≠ x →
      ∃ locals : Frame, (∀ z, z ≠ y → locals.get? z = none) ∧
        ∀ v, (resolve functions ⟨locals, s.frames⟩ (.reference x) session).1 ≠ .ok v := by
  constructor
  · intro locals hlocals
    exact follows_resolveIn levels (.reference x) hlocals session
  · intro y hy _
    have hother : ∀ z, z ≠ y → (Table.insert .empty y (.reference y) : Frame).get? z = none := by
      intro z hz
      rw [Table.get?_insert_of_ne _ hz, Table.get?_empty]
    refine ⟨Table.insert .empty y (.reference y), hother, fun v hv => ?_⟩
    exact fails_of_looksUp hy (Table.get?_insert_self _ _ _) hother levels session _ v
      (Prod.ext hv rfl)

/-! ## A list with a variable in it -/

theorem Scope.resolveIn_of_bound {frame : Frame} {x : String} {v : Value}
    (h : frame.get? x = some v) (hv : ∀ name, v ≠ .reference name) (steps : Nat)
    (outer : List Frame) : resolveIn (steps + 1) (frame :: outer) x = .ok v := by
  rw [resolveIn, h]
  cases v with
  | reference name => exact absurd rfl (hv name)
  | _ => rfl

/-- A list of a variable and a word is resolved item by item. -/
theorem gives_resolve_pair {functions : FunctionTable} {scope : Scope} {x y text : String}
    (hx : scope.resolve x = .ok (.list [.reference y, .literal "solid"] .space))
    (hy : scope.resolve y = .ok (.literal text)) :
    Gives (resolve functions scope (.reference x)) {}
      (.list [.literal text, .literal "solid"] .space) {} := by
  have hatom (n : Nat) (text : String) (s : Session)
      (hs : s.depth + 1 ≤ Limit.evaluationDepth.max) :
      Gives (resolveIn functions scope (n + 1) (.literal text)) s (.literal text) s :=
    isSettled_atom (.literal text) (n + 1) s (Nat.le_add_left 1 n) hs
  have hfound (s : Session) {x : String} {v : Value} (h : scope.resolve x = .ok v) :
      Gives (Metered.ofExcept (scope.resolve x)) s v s := by
    rw [h]
    exact gives_pure v s
  have hvariable : Gives (resolveIn functions scope 255 (.reference y)) { depth := 2 }
      (.literal text) { depth := 2 } :=
    Metered.gives_nested (by decide) ((hfound _ hy).bind (hatom 253 text _ (by decide)))
  have hword : Gives ([Value.literal "solid"].mapM (resolveIn functions scope 255)) { depth := 2 }
      [.literal "solid"] { depth := 2 } := by
    rw [List.mapM_cons]
    exact (hatom 254 "solid" _ (by decide)).bind (gives_pure _ _)
  have hitems : Gives ([Value.reference y, .literal "solid"].mapM (resolveIn functions scope 255))
      { depth := 2 } [.literal text, .literal "solid"] { depth := 2 } := by
    rw [List.mapM_cons]
    exact hvariable.bind (hword.bind (gives_pure _ _))
  have hlist : Gives (resolveIn functions scope 256
      (.list [.reference y, .literal "solid"] .space)) { depth := 1 }
      (.list [.literal text, .literal "solid"] .space) { depth := 1 } :=
    Metered.gives_nested (by decide) (hitems.bind (gives_pure _ _))
  exact Metered.gives_nested (by decide) ((hfound _ hx).bind hlist)

/-- The bindings of a root scope: `$y: red; $z: $y; $m: $z solid; $n: $y solid`. -/
def borders : Frame :=
  Table.insertAll .empty [("y", .literal "red"), ("z", .reference "y"),
    ("m", .list [.reference "z", .literal "solid"] .space),
    ("n", .list [.reference "y", .literal "solid"] .space)]

/-- A list keeps no track of where its variables were bound: below `$y: blue` the list `$n` is not
what it is in the scope that binds it. -/
theorem list_of_outer_scope_is_rebound :
    ¬ ∀ (functions : FunctionTable) (s : Scope) (locals : Frame) (x : String) (session : Session),
      locals.get? x = none →
      resolve functions ⟨locals, s.frames⟩ (.reference x) session =
        resolve functions s (.reference x) session := by
  intro hlexical
  have houter : Gives (resolve .empty ⟨borders, []⟩ (.reference "n")) {}
      (.list [.literal "red", .literal "solid"] .space) {} :=
    gives_resolve_pair (Scope.resolveIn_of_bound rfl (by simp) _ _)
      (Scope.resolveIn_of_bound rfl (by simp) _ _)
  have hn : Scope.resolve ⟨Table.insert .empty "y" (.literal "blue"), [borders]⟩ "n" =
      .ok (.list [.reference "y", .literal "solid"] .space) := by
    rw [Scope.resolve_of_local rfl]
    exact Scope.resolveIn_of_bound rfl (by simp) _ _
  have hy : Scope.resolve ⟨Table.insert .empty "y" (.literal "blue"), [borders]⟩ "y" =
      .ok (.literal "blue") := rfl
  have hinner : Gives (resolve .empty ⟨Table.insert .empty "y" (.literal "blue"), [borders]⟩
      (.reference "n")) {} (.list [.literal "blue", .literal "solid"] .space) {} :=
    gives_resolve_pair hn hy
  have hsame := hlexical .empty ⟨borders, []⟩ (Table.insert .empty "y" (.literal "blue")) "n" {} rfl
  have heq : ((.ok (.list [.literal "blue", .literal "solid"] .space), {}) :
      Except CompileError Value × Session) =
        (.ok (.list [.literal "red", .literal "solid"] .space), {}) :=
    hinner.symm.trans (hsame.trans houter)
  simp at heq

theorem resolve_borders_in_child :
    (∀ y, LooksUp .empty ⟨borders, []⟩ .resolve (.reference "m") y →
        (Table.insert .empty "y" (.literal "blue") : Frame).get? y = none) ∧
      (resolve .empty ⟨Table.insert .empty "y" (.literal "blue"), [borders]⟩ (.reference "m") {} =
          resolve .empty ⟨borders, []⟩ (.reference "m") {} ∨
        ∃ detail t, resolve .empty ⟨Table.insert .empty "y" (.literal "blue"), [borders]⟩
          (.reference "m") {} = (.error (.limitExceeded .resolution detail), t)) ∧
      LooksUp .empty ⟨borders, []⟩ .resolve (.reference "m") "z" ∧
      ∃ locals : Frame, (∀ z, z ≠ "z" → locals.get? z = none) ∧
        ∀ v, (resolve .empty ⟨locals, [borders]⟩ (.reference "m") {}).1 ≠ .ok v := by
  have hm : Scope.resolve ⟨borders, []⟩ "m" =
      .ok (.list [.reference "z", .literal "solid"] .space) :=
    Scope.resolveIn_of_bound rfl (by simp) _ _
  have hz : Scope.resolve ⟨borders, []⟩ "z" = .ok (.literal "red") := rfl
  have hlooks : ∀ y, LooksUp .empty ⟨borders, []⟩ .resolve (.reference "m") y →
      (Table.insert .empty "y" (.literal "blue") : Frame).get? y = none := by
    intro y hy
    cases hy with
    | name => rfl
    | bound hv hy =>
      rw [hm] at hv
      cases hv
      cases hy with
      | item hmem hy =>
        rcases List.mem_cons.1 hmem with rfl | hmem
        · cases hy with
          | name => rfl
          | bound hv hy =>
            rw [hz] at hv
            cases hv
            cases hy
        · obtain rfl := List.mem_singleton.1 hmem
          cases hy
  have hlooksUp : LooksUp .empty ⟨borders, []⟩ .resolve (.reference "m") "z" :=
    .bound hm (.item List.mem_cons_self (.name _ "z"))
  obtain ⟨hsame, hmatters⟩ := resolve_reference_in_child .empty ⟨borders, []⟩ "m" {}
  exact ⟨hlooks, hsame _ hlooks, hlooksUp, hmatters "z" hlooksUp (by decide)⟩

end Stylesheet
