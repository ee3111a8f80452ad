import Stylesheet.Evaluation

/-!
# Relations between two evaluations

Values are reduced in several monads, and in each of them one level is reduced in the same way. So a
relation between work in two monads carries over from the levels below to the level itself, as long
as it stays when both go on. The first work may depend on a parameter, such as a number of steps.

* `IsArgument`: the arguments of a call that are reduced.
* `Congruence`: relations that stay when both go on.
* `Congruence.evaluateBy`, `Congruence.resolveBy`: one level of a value.
-/

namespace Stylesheet

/-- An argument of a call that is reduced before the call. -/
inductive IsArgument : Value → Value → Prop
  | item {items : List Value} {w v : Value} :
    w ∈ items → IsArgument w v → IsArgument (.list items .comma) v
  | reference (name : String) : IsArgument (.reference name) (.reference name)
  | binary (left : Value) (op : Operator) (right : Value) :
    IsArgument (.binary left op right) (.binary left op right)

section Relations

variable {ι : Type} {m m' : Type → Type} [Monad m] [MonadExcept CompileError m] [Monad m']
  [MonadExcept CompileError m']

/-- A relation between two works that stays when both go on. -/
structure Congruence (R : (α : Type) → (ι → m α) → m' α → Prop) : Prop where
  refl {α : Type} (o : Except CompileError α) :
    R _ (fun _ => MonadExcept.ofExcept o) (MonadExcept.ofExcept o)
  bind {α β : Type} {f : ι → m α} {g : m' α} {f' : ι → α → m β} {g' : α → m' β} :
    R _ f g → (∀ a, R _ (fun i => f' i a) (g' a)) → R _ (fun i => f i >>= f' i) (g >>= g')

namespace Congruence

variable {R : (α : Type) → (ι → m α) → m' α → Prop} {f : ι → Value → m Value}
  {g : Value → m' Value}

theorem pure (hR : Congruence R) {α : Type} (a : α) : R _ (fun _ => Pure.pure a) (Pure.pure a) :=
  hR.refl (.ok a)

mutual

theorem argumentsBy (hR : Congruence R) : (args : Value) →
    (∀ v, IsArgument args v → R _ (fun i => f i v) (g v)) →
    R _ (fun i => Stylesheet.argumentsBy (f i) args) (Stylesheet.argumentsBy g args)
  | .list items .comma, h => by
    simp only [Stylesheet.argumentsBy]
    exact allArgumentsBy hR items fun w hw v hv => h v (.item hw hv)
  | .list [] .space, _ => hR.pure _
  | .list (_ :: _) .space, _ => hR.pure _
  | .reference name, h => by
    simp only [Stylesheet.argumentsBy]
    exact hR.bind (h _ (.reference name)) fun v => hR.pure [v]
  | .binary l op r, h => by
    simp only [Stylesheet.argumentsBy]
    exact hR.bind (h _ (.binary l op r)) fun v => hR.pure [v]
  | .quantity _, _ => hR.pure _
  | .literal _, _ => hR.pure _
  | .call _ _, _ => hR.pure _
  | .joined _, _ => hR.pure _
  | .boolean _, _ => hR.pure _
  | .undefined _, _ => hR.pure _

theorem allArgumentsBy (hR : Congruence R) : (items : List Value) →
    (∀ w ∈ items, ∀ v, IsArgument w v → R _ (fun i => f i v) (g v)) →
    R _ (fun i => Stylesheet.allArgumentsBy (f i) items) (Stylesheet.allArgumentsBy g items)
  | [], _ => hR.pure []
  | w :: items, h => by
    simp only [Stylesheet.allArgumentsBy]
    have hw := argumentsBy hR w (h w List.mem_cons_self)
    have hitems := allArgumentsBy hR items fun u hu => h u (List.mem_cons_of_mem w hu)
    exact hR.bind hw fun args => hR.bind hitems fun more => hR.pure (args ++ more)

end

theorem callBy (hR : Congruence R) {functions : FunctionTable} {name : String} {args : Value}
    (h : functions.contains name = true → ∀ v, IsArgument args v → R _ (fun i => f i v) (g v)) :
    R _ (fun i => Stylesheet.callBy functions (f i) name args)
      (Stylesheet.callBy functions g name args) := by
  unfold Stylesheet.callBy
  cases hname : functions.get? name with
  | none => exact hR.refl (.error (.functionNotRegistered name))
  | some function =>
    have hknown : functions.contains name = true := by simp [Table.contains, hname]
    exact hR.bind (hR.argumentsBy args (h hknown)) fun values => hR.pure (function values)

theorem evaluateBy (hR : Congruence R) {functions : FunctionTable} {scope : Scope}
    (h : ∀ v, R _ (fun i => f i v) (g v)) (v : Value) :
    R _ (fun i => Stylesheet.evaluateBy functions scope (f i) v)
      (Stylesheet.evaluateBy functions scope g v) := by
  cases v with
  | reference name => exact hR.bind (hR.refl _) h
  | binary l op r => exact hR.bind (h l) fun a => hR.bind (h r) fun b => hR.refl _
  | call name args => exact hR.callBy fun _ v _ => h v
  | quantity _ => exact hR.pure _
  | literal _ => exact hR.pure _
  | list _ _ => exact hR.pure _
  | joined _ => exact hR.pure _
  | boolean _ => exact hR.pure _
  | undefined _ => exact hR.pure _

variable [LawfulMonad m] [LawfulMonad m']

theorem mapM (hR : Congruence R) {α β : Type} {f : ι → α → m β} {g : α → m' β} {items : List α}
    (h : ∀ a ∈ items, R _ (fun i => f i a) (g a)) :
    R _ (fun i => items.mapM (f i)) (items.mapM g) := by
  induction items with
  | nil => exact hR.pure []
  | cons a items ih =>
    rw [List.forall_mem_cons] at h
    simp only [List.mapM_cons]
    exact hR.bind h.1 fun b => hR.bind (ih h.2) fun bs => hR.pure (b :: bs)

theorem resolveBy (hR : Congruence R) {functions : FunctionTable} {scope : Scope}
    {k : ι → Value → m Value} {l : Value → m' Value} (h : ∀ v, R _ (fun i => f i v) (g v))
    (h' : ∀ v, R _ (fun i => k i v) (l v)) (v : Value) :
    R _ (fun i => Stylesheet.resolveBy functions scope (f i) (k i) v)
      (Stylesheet.resolveBy functions scope g l v) := by
  cases v with
  | reference name => exact hR.bind (hR.refl _) h'
  | binary l op r => exact h _
  | call name args =>
    cases hname : functions.contains name with
    | true =>
      simp only [resolveBy_call_of_contains hname]
      exact hR.callBy fun _ v _ => h v
    | false =>
      simp only [resolveBy_call_of_not_contains hname]
      exact hR.bind (h' args) fun args => hR.pure _
  | list items separator => exact hR.bind (hR.mapM fun v _ => h' v) fun items => hR.pure _
  | joined parts => exact hR.bind (hR.mapM fun v _ => h' v) fun parts => hR.pure _
  | quantity _ => exact hR.pure _
  | literal _ => exact hR.pure _
  | boolean _ => exact hR.pure _
  | undefined _ => exact hR.pure _

end Congruence

end Relations

end Stylesheet
