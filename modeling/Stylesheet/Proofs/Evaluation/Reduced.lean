import Stylesheet.Proofs.Nesting.Evaluation
import Stylesheet.Proofs.Scribe.Runs

/-!
# Reduced values

Resolving a value leaves nothing to reduce: no variable, no expression and no call of a function
that is known. Every level of what is left took a level of evaluation, so it can be resolved once
more in any scope, and is left as it is.

* `Value.IsReduced`, `Value.height`: values without anything to reduce, and their levels.
* `Value.Fits`: reduced values with room for their levels.
* `Value.combine_isAtom`: expressions give values without parts.
* `FunctionTable.GivesAtoms`: calls do so too; `FunctionTable.givesAtoms_builtins`: for example those
  of the built-in functions.
* `resolveIn_fits`: what resolution gives; `isSettled_of_isReduced`: what it leaves alone.
-/

namespace Stylesheet

namespace Value

/-! ## Values without anything to reduce -/

mutual

/-- A value without variables, expressions and calls of known functions. -/
def IsReduced (functions : FunctionTable) : Value → Prop
  | .reference _ => False
  | .binary _ _ _ => False
  | .call name args => functions.contains name = false ∧ IsReduced functions args
  | .list items _ => AllReduced functions items
  | .joined parts => AllReduced functions parts
  | .quantity _ => True
  | .literal _ => True
  | .boolean _ => True
  | .undefined _ => True

def AllReduced (functions : FunctionTable) : List Value → Prop
  | [] => True
  | v :: vs => IsReduced functions v ∧ AllReduced functions vs

end

mutual

/-- How many values stand inside of one another. -/
def height : Value → Nat
  | .call _ args => height args + 1
  | .list items _ => heightAll items + 1
  | .joined parts => heightAll parts + 1
  | .binary left _ right => max (height left) (height right) + 1
  | .reference _ => 1
  | .quantity _ => 1
  | .literal _ => 1
  | .boolean _ => 1
  | .undefined _ => 1

def heightAll : List Value → Nat
  | [] => 0
  | v :: vs => max (height v) (heightAll vs)

end

theorem allReduced_iff {functions : FunctionTable} {vs : List Value} :
    AllReduced functions vs ↔ ∀ v ∈ vs, v.IsReduced functions := by
  induction vs with
  | nil => simp [AllReduced]
  | cons v vs ih => rw [AllReduced, ih, List.forall_mem_cons]

theorem heightAll_le_iff {vs : List Value} {k : Nat} :
    heightAll vs ≤ k ↔ ∀ v ∈ vs, v.height ≤ k := by
  induction vs with
  | nil => simp [heightAll]
  | cons v vs ih => rw [heightAll, max_le_iff, ih, List.forall_mem_cons]

/-- A value without parts that stands for itself. -/
inductive IsAtom : Value → Prop
  | quantity (q : Quantity) : IsAtom (.quantity q)
  | literal (text : String) : IsAtom (.literal text)
  | boolean (truth : Bool) : IsAtom (.boolean truth)
  | undefined (name : String) : IsAtom (.undefined name)

theorem IsAtom.isReduced {v : Value} (h : v.IsAtom) (functions : FunctionTable) :
    v.IsReduced functions := by
  cases h <;> trivial

theorem IsAtom.height_eq {v : Value} (h : v.IsAtom) : v.height = 1 := by
  cases h <;> rfl

/-! ## Room for the levels of a value -/

/-- A reduced value that the levels beyond a depth suffice for. -/
structure Fits (functions : FunctionTable) (depth : Nat) (v : Value) : Prop where
  isReduced : v.IsReduced functions
  height_le : depth + v.height ≤ Limit.evaluationDepth.max

section Fits

variable {functions : FunctionTable} {depth : Nat}

theorem Fits.of_le {k : Nat} {v : Value} (h : v.Fits functions k) (hle : depth ≤ k) :
    v.Fits functions depth :=
  ⟨h.isReduced, (Nat.add_le_add_right hle _).trans h.height_le⟩

theorem IsAtom.fits {v : Value} (h : v.IsAtom) (hdepth : depth < Limit.evaluationDepth.max) :
    v.Fits functions depth := by
  refine ⟨h.isReduced functions, ?_⟩
  rw [h.height_eq]
  exact hdepth

theorem Fits.call {name : String} {args : Value} (hname : functions.contains name = false)
    (h : args.Fits functions (depth + 1)) : (Value.call name args).Fits functions depth := by
  have hheight := h.height_le
  refine ⟨⟨hname, h.isReduced⟩, ?_⟩
  rw [height]
  omega

theorem heightAll_le_of_fits {vs : List Value} (hdepth : depth < Limit.evaluationDepth.max)
    (h : ∀ v ∈ vs, v.Fits functions (depth + 1)) :
    depth + (heightAll vs + 1) ≤ Limit.evaluationDepth.max := by
  have hall : heightAll vs ≤ Limit.evaluationDepth.max - (depth + 1) :=
    heightAll_le_iff.2 fun v hv => Nat.le_sub_of_add_le' (h v hv).height_le
  omega

theorem Fits.list {items : List Value} (hdepth : depth < Limit.evaluationDepth.max)
    (h : ∀ v ∈ items, v.Fits functions (depth + 1)) (separator : Separator) :
    (Value.list items separator).Fits functions depth :=
  ⟨allReduced_iff.2 fun v hv => (h v hv).isReduced, heightAll_le_of_fits hdepth h⟩

theorem Fits.joined {parts : List Value} (hdepth : depth < Limit.evaluationDepth.max)
    (h : ∀ v ∈ parts, v.Fits functions (depth + 1)) : (Value.joined parts).Fits functions depth :=
  ⟨allReduced_iff.2 fun v hv => (h v hv).isReduced, heightAll_le_of_fits hdepth h⟩

end Fits

/-! ## Results of operators and functions -/

theorem arithmetic_isAtom {op : Operator} {left right v : Value}
    (h : arithmetic op left right = .ok v) : v.IsAtom := by
  unfold arithmetic at h
  split at h
  · rename_i l r
    cases happly : l.apply op r with
    | error e =>
      rw [happly] at h
      cases h
    | ok q =>
      rw [happly] at h
      cases h
      exact .quantity q
  · cases h

theorem order_isAtom {holds : Float → Float → Bool} {left right v : Value}
    (h : order holds left right = .ok v) : v.IsAtom := by
  unfold order at h
  cases hl : left.asNumber with
  | error e =>
    rw [hl] at h
    cases h
  | ok l =>
    cases hr : right.asNumber with
    | error e =>
      rw [hl, hr] at h
      cases h
    | ok r =>
      rw [hl, hr] at h
      cases h
      exact .boolean _

theorem combine_isAtom {left right v : Value} {op : Operator}
    (h : left.combine op right = .ok v) : v.IsAtom := by
  cases op with
  | equal => cases h; exact .boolean _
  | notEqual => cases h; exact .boolean _
  | greater => exact order_isAtom h
  | greaterEqual => exact order_isAtom h
  | less => exact order_isAtom h
  | lessEqual => exact order_isAtom h
  | add => exact arithmetic_isAtom h
  | subtract => exact arithmetic_isAtom h
  | multiply => exact arithmetic_isAtom h
  | divide => exact arithmetic_isAtom h
  | modulo => exact arithmetic_isAtom h

end Value

namespace Builtin

theorem onQuantity_isAtom (name : String) (f : Quantity → Quantity) (args : List Value) :
    (onQuantity name f args).IsAtom := by
  unfold onQuantity
  split
  · exact .quantity _
  · exact .literal _

theorem onColor_isAtom (name : String) (f : Hsl → Float → Hsl) (args : List Value) :
    (onColor name f args).IsAtom := by
  unfold onColor
  split
  · split <;> exact .literal _
  · exact .literal _

theorem withAlpha_isAtom (name : String) (args : List Value) : (withAlpha name args).IsAtom := by
  unfold withAlpha
  split
  · split <;> exact .literal _
  · exact .literal _

theorem apply_isAtom (f : Builtin) (args : List Value) : (f.apply args).IsAtom := by
  unfold apply
  split
  · exact onQuantity_isAtom _ _ _
  · exact onQuantity_isAtom _ _ _
  · exact onQuantity_isAtom _ _ _
  · exact onQuantity_isAtom _ _ _
  · exact withAlpha_isAtom _ _
  · exact onColor_isAtom _ _ _
  · exact onColor_isAtom _ _ _
  · exact onColor_isAtom _ _ _
  · exact onColor_isAtom _ _ _
  · exact onColor_isAtom _ _ _

end Builtin

namespace FunctionTable

/-- Calls of the functions give values without parts. -/
def GivesAtoms (functions : FunctionTable) : Prop :=
  ∀ name f, functions.get? name = some f → ∀ args, (f args).IsAtom

theorem givesAtoms_empty : GivesAtoms .empty := fun name _ h => by
  rw [Table.get?_empty] at h
  cases h

theorem givesAtoms_builtins : builtins.GivesAtoms := by
  intro name f h args
  rcases Table.mem_of_get?_insertAll h with hmem | hget
  · obtain ⟨b, -, hb⟩ := List.mem_map.1 hmem
    cases hb
    exact Builtin.apply_isAtom b args
  · rw [Table.get?_empty] at hget
    cases hget

end FunctionTable

/-! ## Work that succeeded -/

section Gives

variable {σ α β : Type} {s s' : σ}

theorem Gives.of_bind {x : ExceptT CompileError (StateM σ) α}
    {f : α → ExceptT CompileError (StateM σ) β} {b : β} (h : Gives (x >>= f) s b s') :
    ∃ a t, Gives x s a t ∧ Gives (f a) t b s' := by
  rcases hx : x s with ⟨o, t⟩
  cases o with
  | error e =>
    have herror : (x >>= f) s = (.error e, t) := work_bind_error hx
    rw [Gives, herror] at h
    cases h
  | ok a =>
    have hok : (x >>= f) s = f a t := work_bind_ok hx
    rw [Gives, hok] at h
    exact ⟨a, t, hx, h⟩

theorem Gives.of_pure {a b : α} (h : Gives (pure a) s b s') : b = a ∧ s' = s := by
  cases h
  exact ⟨rfl, rfl⟩

theorem Gives.of_mapM {f : α → ExceptT CompileError (StateM σ) β} {items : List α} {out : List β}
    {P : β → Prop} (hf : ∀ a b t, Gives (f a) s b t → t = s ∧ P b)
    (h : Gives (items.mapM f) s out s') : s' = s ∧ ∀ b ∈ out, P b := by
  induction items generalizing out s' with
  | nil =>
    obtain ⟨rfl, rfl⟩ := h.of_pure
    simp
  | cons a items ih =>
    rw [List.mapM_cons] at h
    obtain ⟨b, t, hb, h⟩ := h.of_bind
    obtain ⟨ht, hP⟩ := hf a b t hb
    rw [ht] at h
    obtain ⟨bs, u, hbs, h⟩ := h.of_bind
    obtain ⟨hu, hPs⟩ := ih hbs
    obtain ⟨rfl, rfl⟩ := h.of_pure
    exact ⟨hu, List.forall_mem_cons.2 ⟨hP, hPs⟩⟩

theorem Gives.of_foldlM {f : β → α → ExceptT CompileError (StateM σ) β} {P : β → σ → Prop}
    (hf : ∀ b a s b' s', P b s → Gives (f b a) s b' s' → P b' s') {items : List α} {b b' : β}
    (hb : P b s) (h : Gives (items.foldlM f b) s b' s') : P b' s' := by
  induction items generalizing b s with
  | nil =>
    obtain ⟨rfl, rfl⟩ := h.of_pure
    exact hb
  | cons a items ih =>
    rw [List.foldlM_cons] at h
    obtain ⟨c, t, hc, h⟩ := h.of_bind
    exact ih (hf b a s c t hb hc) h

end Gives

namespace Metered

variable {α : Type} {s s' : Session} {a : α}

theorem of_gives_nested {work : Metered α} (h : Gives (nested work) s a s') :
    s.depth < Limit.evaluationDepth.max ∧
      ∃ t, Gives work { s with depth := s.depth + 1 } a t := by
  by_cases hdepth : s.depth < Limit.evaluationDepth.max
  · refine ⟨hdepth, ?_⟩
    rw [Gives, nested, descend_ok hdepth] at h
    dsimp only at h
    rcases hwork : work { s with depth := s.depth + 1 } with ⟨o, t⟩
    rw [hwork] at h
    exact ⟨t, hwork.trans (congrArg (·, t) (congrArg Prod.fst h))⟩
  · rw [Gives, nested, descend_error (Nat.le_of_not_lt hdepth)] at h
    cases h

theorem of_gives_ofExcept {o : Except CompileError α} (h : Gives (ofExcept o) s a s') :
    o = .ok a ∧ s' = s := by
  cases o with
  | error e => cases h
  | ok b =>
    cases h
    exact ⟨rfl, rfl⟩

end Metered

/-! ## Resolution -/

section Resolve

variable {functions : FunctionTable} {scope : Scope} {s s' : Session} {v r : Value} {n : Nat}

theorem evaluateIn_binary_isAtom {left right : Value} {op : Operator}
    (h : Gives (evaluateIn functions scope n (.binary left op right)) s r s') : r.IsAtom := by
  cases n with
  | zero => cases h
  | succ n =>
    obtain ⟨-, t, h⟩ := Metered.of_gives_nested h
    obtain ⟨l, t, -, h⟩ := h.of_bind
    obtain ⟨r, t, -, h⟩ := h.of_bind
    exact Value.combine_isAtom (Metered.of_gives_ofExcept h).1

theorem callBy_isAtom (hfunctions : functions.GivesAtoms) {reduce : Value → Metered Value}
    {name : String} {args : Value} (h : Gives (callBy functions reduce name args) s r s') :
    r.IsAtom := by
  unfold callBy at h
  split at h
  next f hf =>
    obtain ⟨values, t, -, h⟩ := h.of_bind
    obtain ⟨rfl, -⟩ := h.of_pure
    exact hfunctions name f hf values
  next => cases h

theorem Reduces.session_eq {α : Type} {u : Nat → Scribe α} {b : Metered α} {a : α}
    (h : Reduces u b s.depth) (ha : Gives b s a s') : s' = s := by
  obtain ⟨o, hb, -⟩ := h
  have heq : (o, s) = (.ok a, s') := (hb s rfl).symm.trans ha
  exact (congrArg Prod.snd heq).symm

theorem resolveIn_session (hroom : Limit.evaluationDepth.max ≤ s.depth + n)
    (h : Gives (resolveIn functions scope n v) s r s') : s' = s :=
  (reduces_resolve hroom v).session_eq h

/-- What resolution gives is reduced, and has no more levels than there were left. -/
theorem resolveIn_fits (hfunctions : functions.GivesAtoms)
    (hroom : Limit.evaluationDepth.max ≤ s.depth + n)
    (h : Gives (resolveIn functions scope n v) s r s') : r.Fits functions s.depth := by
  induction n generalizing v r s s' with
  | zero => cases h
  | succ n ih =>
    obtain ⟨hdepth, t, h⟩ := Metered.of_gives_nested h
    have hroom : Limit.evaluationDepth.max ≤ s.depth + 1 + n := by omega
    have hparts {vs rs : List Value} {t : Session}
        (h : Gives (vs.mapM (resolveIn functions scope n)) { s with depth := s.depth + 1 } rs t) :
        ∀ r ∈ rs, r.Fits functions (s.depth + 1) :=
      (h.of_mapM fun _ _ _ hr => ⟨resolveIn_session hroom hr, ih hroom hr⟩).2
    cases v with
    | reference name =>
      -- What a variable stands for has one level less left than the variable itself.
      obtain ⟨w, t, hw, h⟩ := h.of_bind
      obtain ⟨-, rfl⟩ := Metered.of_gives_ofExcept hw
      exact (ih hroom h).of_le (Nat.le_succ s.depth)
    | binary left op right => exact (evaluateIn_binary_isAtom h).fits hdepth
    | call name args =>
      cases hknown : functions.contains name with
      | true =>
        rw [resolveBy_call_of_contains hknown] at h
        exact (callBy_isAtom hfunctions h).fits hdepth
      | false =>
        rw [resolveBy_call_of_not_contains hknown] at h
        obtain ⟨w, t, hw, h⟩ := h.of_bind
        obtain ⟨rfl, -⟩ := h.of_pure
        exact .call hknown (ih hroom hw)
    | list items separator =>
      obtain ⟨rs, t, hrs, h⟩ := h.of_bind
      obtain ⟨rfl, -⟩ := h.of_pure
      exact .list hdepth (hparts hrs) separator
    | joined parts =>
      obtain ⟨rs, t, hrs, h⟩ := h.of_bind
      obtain ⟨rfl, -⟩ := h.of_pure
      exact .joined hdepth (hparts hrs)
    | quantity q =>
      obtain ⟨rfl, -⟩ := h.of_pure
      exact (Value.IsAtom.quantity q).fits hdepth
    | literal text =>
      obtain ⟨rfl, -⟩ := h.of_pure
      exact (Value.IsAtom.literal text).fits hdepth
    | boolean truth =>
      obtain ⟨rfl, -⟩ := h.of_pure
      exact (Value.IsAtom.boolean truth).fits hdepth
    | undefined name =>
      obtain ⟨rfl, -⟩ := h.of_pure
      exact (Value.IsAtom.undefined name).fits hdepth

end Resolve

/-! ## Resolving once more -/

section Settled

open Nesting (IsSettled)

variable {functions : FunctionTable} {scope : Scope} {j k : Nat}

theorem isSettled_of_le {v : Value} (h : IsSettled functions scope j v) (hle : j ≤ k) :
    IsSettled functions scope k v :=
  fun n s hn hdepth => h n s (by omega) (by omega)

theorem isSettled_atom {v : Value} (h : v.IsAtom) : IsSettled functions scope 1 v := by
  intro n s hn hdepth
  obtain ⟨n, rfl⟩ := Nat.exists_eq_add_of_le' hn
  cases h <;> exact Metered.gives_nested (by omega) (gives_pure _ _)

theorem isSettled_joined {parts : List Value} (h : ∀ v ∈ parts, IsSettled functions scope k v) :
    IsSettled functions scope (k + 1) (.joined parts) := by
  intro n s hn hdepth
  obtain ⟨n, rfl⟩ := Nat.exists_eq_succ_of_ne_zero (by omega : n ≠ 0)
  refine Metered.gives_nested (by omega) ?_
  have hparts : Gives (parts.mapM (resolveIn functions scope n)) { s with depth := s.depth + 1 }
      parts { s with depth := s.depth + 1 } := by
    refine gives_mapM fun v hv => h v hv n _ (by omega) ?_
    show s.depth + 1 + k ≤ _
    omega
  exact hparts.bind (gives_pure _ _)

theorem isSettled_call {name : String} {args : Value} (hname : functions.contains name = false)
    (h : IsSettled functions scope k args) :
    IsSettled functions scope (k + 1) (.call name args) := by
  intro n s hn hdepth
  obtain ⟨n, rfl⟩ := Nat.exists_eq_succ_of_ne_zero (by omega : n ≠ 0)
  refine Metered.gives_nested (by omega) ?_
  rw [resolveBy_call_of_not_contains hname]
  have hargs := h n { s with depth := s.depth + 1 } (by omega) (by
    show s.depth + 1 + k ≤ _
    omega)
  exact hargs.bind (gives_pure _ _)

mutual

/-- Resolving a reduced value gives it back in every scope. -/
theorem isSettled_of_isReduced : (v : Value) → v.IsReduced functions →
    IsSettled functions scope v.height v
  | .reference _, h => h.elim
  | .binary _ _ _, h => h.elim
  | .call _ args, h => isSettled_call h.1 (isSettled_of_isReduced args h.2)
  | .list items separator, h =>
    Nesting.isSettled_list (isSettled_of_allReduced items h) separator
  | .joined parts, h => isSettled_joined (isSettled_of_allReduced parts h)
  | .quantity q, _ => isSettled_atom (.quantity q)
  | .literal text, _ => isSettled_atom (.literal text)
  | .boolean truth, _ => isSettled_atom (.boolean truth)
  | .undefined name, _ => isSettled_atom (.undefined name)

theorem isSettled_of_allReduced : (vs : List Value) → Value.AllReduced functions vs →
    ∀ v ∈ vs, IsSettled functions scope (Value.heightAll vs) v
  | [], _ => fun _ hv => absurd hv List.not_mem_nil
  | v :: vs, h => by
    refine List.forall_mem_cons.2 ⟨?_, fun w hw => ?_⟩
    · exact isSettled_of_le (isSettled_of_isReduced v h.1) (Nat.le_max_left _ _)
    · exact isSettled_of_le (isSettled_of_allReduced vs h.2 w hw) (Nat.le_max_right _ _)

end

end Settled

end Stylesheet
