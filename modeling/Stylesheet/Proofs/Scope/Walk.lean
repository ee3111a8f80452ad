import Mathlib.Algebra.Order.Ring.Nat
import Mathlib.Data.List.Perm.Subperm
import Mathlib.Logic.Relation
import Stylesheet.Scope

/-!
# The walk of a lookup

A lookup walks through the frames of a scope: outward where its name has no binding, and on to
another name in the same frame where the binding is an alias. The number of its steps is limited, so
that it stops if it goes round in a circle.

* `Moves`, `Ends`: one move of a walk, and what a walk comes to where no move is left.
* `Revisits`: a walk that is at some place a second time, and so never ends.
* `resolveIn_run`: a lookup makes the moves of its walk, until the walk ends or its steps are used up.
* `Trail.length_le`: a walk that is nowhere twice makes no more moves than there are aliases and
  frames.
* `resolve_follows_walk`: so the limit of a lookup tells apart the walks that end from those that do
  not, unless there are more aliases and frames than steps.
-/

namespace Stylesheet.Scope

/-- Where a walk is: the frames from the one it looks into outward, and the name it looks for. -/
abbrev Query := List Frame × String

inductive Moves : Query → Query → Prop
  | outward {frame : Frame} {outer : List Frame} {name : String} : frame.get? name = none →
    Moves (frame :: outer, name) (outer, name)
  | follow {frame : Frame} {outer : List Frame} {name target : String} :
    frame.get? name = some (.reference target) → target ≠ name →
    Moves (frame :: outer, name) (frame :: outer, target)

/-- What a walk comes to: a binding that is no alias, an alias of a name to itself, or a name that no
frame is left for. -/
inductive Ends : Query → Except CompileError Value → Prop
  | bound {frame : Frame} {outer : List Frame} {name : String} {value : Value} :
    frame.get? name = some value → (∀ target, value ≠ .reference target) →
    Ends (frame :: outer, name) (.ok value)
  | self {frame : Frame} {outer : List Frame} {name : String} :
    frame.get? name = some (.reference name) →
    Ends (frame :: outer, name) (.error (.selfReference name))
  | missing {name : String} : Ends ([], name) (.ok (.undefined name))

/-- The walk from one query comes to another one. -/
def Walks : Query → Query → Prop := Relation.ReflTransGen Moves

/-- The walk from a query comes to some query twice. -/
def Revisits (start : Query) : Prop := ∃ q, Walks start q ∧ Relation.TransGen Moves q q

/-! ## A walk has one way to go -/

theorem moves_unique : Relator.RightUnique Moves := by
  intro p q r hq hr
  cases hq with
  | outward hnone =>
    cases hr with
    | outward => rfl
    | follow hsome => simp [hnone] at hsome
  | follow hsome =>
    cases hr with
    | outward hnone => simp [hnone] at hsome
    | follow hsome' =>
      rw [hsome] at hsome'
      cases hsome'
      rfl

theorem Ends.not_moves {p q : Query} {r : Except CompileError Value} (h : Ends p r) : ¬ Moves p q := by
  intro hmove
  cases hmove with
  | outward hnone =>
    cases h with
    | bound hvalue => simp [hnone] at hvalue
    | self hself => simp [hnone] at hself
  | follow htarget hne =>
    cases h with
    | bound hvalue hvar =>
      rw [htarget] at hvalue
      cases hvalue
      exact hvar _ rfl
    | self hself =>
      rw [htarget] at hself
      cases hself
      exact hne rfl

/-- A walk that comes back to where it was comes back to every place it goes through. -/
theorem transGen_of_walks {p q : Query} (hp : Relation.TransGen Moves p p) (h : Walks p q) :
    Relation.TransGen Moves q q := by
  induction h with
  | refl => exact hp
  | @tail q r _ hmove ih =>
    obtain ⟨r', hfirst, hback⟩ := Relation.TransGen.head'_iff.1 ih
    obtain rfl : r' = r := moves_unique hfirst hmove
    exact Relation.TransGen.tail' hback hmove

theorem Revisits.not_ends {start q : Query} {r : Except CompileError Value} (h : Revisits start)
    (hwalk : Walks start q) : ¬ Ends q r := by
  intro hends
  obtain ⟨p, hp, hround⟩ := h
  -- A walk has one way to go, so one of the two places is on the way to the other.
  have hpq : Walks p q := by
    rcases Relation.ReflTransGen.total_of_right_unique moves_unique hp hwalk with hpq | hqp
    · exact hpq
    · rcases Relation.ReflTransGen.cases_head hqp with rfl | ⟨next, hmove, -⟩
      · exact .refl
      · exact absurd hmove hends.not_moves
  obtain ⟨next, hmove, -⟩ := Relation.TransGen.head'_iff.1 (transGen_of_walks hround hpq)
  exact hends.not_moves hmove

theorem Walks.suffix {p q : Query} (h : Walks p q) : q.1 <:+ p.1 := by
  induction h with
  | refl => exact List.suffix_rfl
  | tail _ hmove ih =>
    refine List.IsSuffix.trans ?_ ih
    cases hmove with
    | outward => exact List.suffix_cons _ _
    | follow => exact List.suffix_rfl

/-! ## A lookup makes the moves of its walk -/

/-- The queries that a walk leaves behind on its way from one query to another. -/
inductive Trail : Query → List Query → Query → Prop
  | nil (p : Query) : Trail p [] p
  | cons {p q r : Query} {trail : List Query} : Moves p q → Trail q trail r → Trail p (p :: trail) r

theorem resolveIn_step (steps : Nat) (frame : Frame) (outer : List Frame) (name : String) :
    (∃ q, Moves (frame :: outer, name) q ∧
      resolveIn (steps + 1) (frame :: outer) name = resolveIn steps q.1 q.2) ∨
    Ends (frame :: outer, name) (resolveIn (steps + 1) (frame :: outer) name) := by
  rw [resolveIn]
  split
  · rename_i target htarget
    split
    · rename_i heq
      subst heq
      exact .inr (.self htarget)
    · rename_i hne
      exact .inl ⟨_, .follow htarget hne, rfl⟩
  · rename_i value hvar hvalue
    exact .inr (.bound hvalue fun target heq => hvar target heq)
  · rename_i hnone
    exact .inl ⟨_, .outward hnone, rfl⟩

/-- A lookup gives what its walk comes to, or has used up its steps and is still inside of the
frames. -/
theorem resolveIn_run (steps : Nat) (start : Query) :
    (∃ q, Walks start q ∧ Ends q (resolveIn steps start.1 start.2)) ∨
    ∃ trail frame outer name, trail.length = steps ∧ Trail start trail (frame :: outer, name) ∧
      resolveIn steps start.1 start.2 = .error (.limitExceeded .resolution ("$" ++ name)) := by
  induction steps generalizing start with
  | zero =>
    obtain ⟨frames, name⟩ := start
    cases frames with
    | nil => exact .inl ⟨_, .refl, .missing⟩
    | cons frame outer => exact .inr ⟨[], frame, outer, name, rfl, .nil _, rfl⟩
  | succ steps ih =>
    obtain ⟨frames, name⟩ := start
    cases frames with
    | nil => exact .inl ⟨_, .refl, .missing⟩
    | cons frame outer =>
      rcases resolveIn_step steps frame outer name with ⟨q, hmove, heq⟩ | hends
      · rw [heq]
        rcases ih q with ⟨p, hwalk, hends⟩ | ⟨trail, frame', outer', name', hlength, htrail, hlimit⟩
        · exact .inl ⟨p, .head hmove hwalk, hends⟩
        · exact .inr ⟨_ :: trail, frame', outer', name', by simp [hlength], .cons hmove htrail, hlimit⟩
      · exact .inl ⟨_, .refl, hends⟩

theorem resolve_ne_reference {s : Scope} {name : String} {value : Value}
    (h : s.resolve name = .ok value) (target : String) : value ≠ .reference target := by
  have hrun := resolveIn_run Limit.resolution.max (s.frames, name)
  have hok : resolveIn Limit.resolution.max (s.frames, name).1 (s.frames, name).2 = .ok value := h
  rw [hok] at hrun
  rcases hrun with ⟨q, -, hends⟩ | ⟨-, -, -, last, -, -, hlimit⟩
  · cases hends with
    | bound _ hvar => exact hvar target
    | missing => simp
  · cases hlimit

/-! ## How long a walk can be -/

/-- The bindings of a frame that are aliases. -/
def aliases (frame : Frame) : List (String × Value) :=
  frame.entries.filter fun
    | (_, .reference _) => true
    | _ => false

/-- How many bindings of a scope are aliases. -/
def aliasCount (s : Scope) : Nat := (s.frames.map fun frame => (aliases frame).length).sum

theorem mem_aliases {frame : Frame} {name target : String}
    (h : frame.get? name = some (.reference target)) : (name, .reference target) ∈ aliases frame := by
  have hentry : (name, Value.reference target) ∈ frame.entries := by
    unfold Table.entries
    rw [Std.TreeMap.mem_toList_iff_getElem?_eq_some]
    exact h
  exact List.mem_filter.2 ⟨hentry, rfl⟩

/-- The queries in a row of frames that an alias answers. -/
def aliasQueries : List Frame → List Query
  | [] => []
  | frame :: outer => (aliases frame).map (fun entry => (frame :: outer, entry.1)) ++ aliasQueries outer

theorem length_aliasQueries (frames : List Frame) :
    (aliasQueries frames).length = (frames.map fun frame => (aliases frame).length).sum := by
  induction frames with
  | nil => rfl
  | cons frame outer ih => simp [aliasQueries, ih]

theorem mem_aliasQueries {frames outer : List Frame} {frame : Frame} {name target : String}
    (hsuffix : frame :: outer <:+ frames) (h : frame.get? name = some (.reference target)) :
    (frame :: outer, name) ∈ aliasQueries frames := by
  induction frames with
  | nil => simp at hsuffix
  | cons frame' frames ih =>
    rw [aliasQueries, List.mem_append]
    rcases List.suffix_cons_iff.1 hsuffix with heq | hsuffix
    · cases heq
      exact .inl (List.mem_map.2 ⟨_, mem_aliases h, rfl⟩)
    · exact .inr (ih hsuffix)

/-- Whether the name of a query has no binding in the innermost frame. -/
def isUnbound : Query → Bool
  | ([], _) => false
  | (frame :: _, name) => (frame.get? name).isNone

namespace Trail

variable {p q : Query} {trail : List Query}

/-- A walk comes to every query that it leaves behind, and moves on from it. -/
theorem of_mem (h : Trail p trail q) {r : Query} (hr : r ∈ trail) :
    Walks p r ∧ ∃ next, Moves r next := by
  induction h with
  | nil => simp at hr
  | cons hmove _ ih =>
    rcases List.mem_cons.1 hr with rfl | hr
    · exact ⟨.refl, _, hmove⟩
    · obtain ⟨hwalk, hnext⟩ := ih hr
      exact ⟨.head hmove hwalk, hnext⟩

theorem nodup (h : Trail p trail q) (hnever : ¬ Revisits p) : trail.Nodup := by
  induction h with
  | nil => exact List.nodup_nil
  | @cons p next q trail hmove htrail ih =>
    refine List.nodup_cons.2 ⟨fun hmem => ?_, ih ?_⟩
    · exact hnever ⟨p, .refl, Relation.TransGen.head' hmove (htrail.of_mem hmem).1⟩
    · rintro ⟨r, hwalk, hround⟩
      exact hnever ⟨r, .head hmove hwalk, hround⟩

/-- Every frame is left at most once. -/
theorem countP_isUnbound (h : Trail p trail q) :
    trail.countP isUnbound + q.1.length = p.1.length := by
  induction h with
  | nil => simp
  | cons hmove _ ih =>
    cases hmove with
    | outward hnone =>
      rw [List.countP_cons_of_pos (by simp [isUnbound, hnone]), List.length_cons]
      dsimp only at ih
      omega
    | follow htarget =>
      rw [List.countP_cons_of_neg (by simp [isUnbound, htarget])]
      exact ih

theorem countP_bound_le (h : Trail p trail q) (hnever : ¬ Revisits p) :
    trail.countP (fun r => ¬ isUnbound r) ≤ (aliasQueries p.1).length := by
  -- The places where an alias is followed are all different, and each is the query of an alias.
  rw [List.countP_eq_length_filter]
  refine (List.Nodup.subperm ((h.nodup hnever).filter _) fun r hr => ?_).length_le
  obtain ⟨hmem, hbound⟩ := List.mem_filter.1 hr
  obtain ⟨hwalk, next, hmove⟩ := h.of_mem hmem
  cases hmove with
  | outward hnone => simp [isUnbound, hnone] at hbound
  | follow htarget => exact mem_aliasQueries hwalk.suffix htarget

theorem length_le (h : Trail p trail q) (hnever : ¬ Revisits p) :
    trail.length + q.1.length ≤ (aliasQueries p.1).length + p.1.length := by
  have hsplit := List.length_eq_countP_add_countP isUnbound (l := trail)
  have hframes := h.countP_isUnbound
  have haliases := h.countP_bound_le hnever
  omega

end Trail

/-! ## The limit of a lookup -/

/-- With at least as many steps as there are aliases and frames, a lookup uses up its steps exactly if
its walk never ends. -/
theorem limit_iff_revisits {steps : Nat} (start : Query)
    (hsteps : (aliasQueries start.1).length + start.1.length ≤ steps) :
    (∃ detail, resolveIn steps start.1 start.2 = .error (.limitExceeded .resolution detail)) ↔
      Revisits start := by
  constructor
  · rintro ⟨detail, hlimit⟩
    by_contra hnever
    rcases resolveIn_run steps start with ⟨q, -, hends⟩ | ⟨trail, frame, outer, name, hlength, htrail, -⟩
    · rw [hlimit] at hends
      cases hends
    · have hle := htrail.length_le hnever
      rw [List.length_cons] at hle
      omega
  · intro hround
    rcases resolveIn_run steps start with ⟨q, hwalk, hends⟩ | ⟨-, -, -, name, -, -, hlimit⟩
    · exact absurd hends (hround.not_ends hwalk)
    · exact ⟨_, hlimit⟩

/-- A lookup gives what its walk comes to, unless it reaches its limit. If a scope has at most as many
aliases and frames as a lookup has steps, the limit is reached exactly if the walk is at some place a
second time. -/
theorem resolve_follows_walk (s : Scope) (name : String) :
    ((∃ q, Walks (s.frames, name) q ∧ Ends q (s.resolve name)) ∨
      ∃ detail, s.resolve name = .error (.limitExceeded .resolution detail)) ∧
    (s.aliasCount + s.frames.length ≤ 10000 →
      ((∃ detail, s.resolve name = .error (.limitExceeded .resolution detail)) ↔
        Revisits (s.frames, name))) := by
  constructor
  · rcases resolveIn_run Limit.resolution.max (s.frames, name) with hends | ⟨-, -, -, last, -, -, hlimit⟩
    · exact .inl hends
    · exact .inr ⟨_, hlimit⟩
  · intro hcount
    refine limit_iff_revisits (s.frames, name) ?_
    rw [length_aliasQueries]
    exact hcount

/-- `$a: $b` inside of `$c: red` inside of `$b: $c; $c: $b`. -/
def circle : Scope where
  locals := Table.insert .empty "a" (.reference "b")
  outer := [Table.insert .empty "c" (.literal "red"),
    Table.insertAll .empty [("b", .reference "c"), ("c", .reference "b")]]

/-- From `a` the walk passes the binding of `c` that ends it and comes to the circle further out. -/
theorem resolve_circle :
    circle.aliasCount + circle.frames.length ≤ 10000 ∧
      Revisits (circle.frames, "a") ∧
      (∃ detail, circle.resolve "a" = .error (.limitExceeded .resolution detail)) ∧
      ¬ Revisits (circle.frames, "c") := by
  have hcount : circle.aliasCount + circle.frames.length ≤ 10000 := by decide
  have hb : Walks (circle.frames, "a") (circle.outer.tail, "b") :=
    .head (.follow rfl (by decide)) (.head (.outward rfl) (.head (.outward rfl) .refl))
  have hround : Relation.TransGen Moves (circle.outer.tail, "b") (circle.outer.tail, "b") :=
    .head (.follow rfl (by decide)) (.single (.follow rfl (by decide)))
  have hcircle : Revisits (circle.frames, "a") := ⟨_, hb, hround⟩
  have hred : circle.resolve "c" = .ok (.literal "red") := rfl
  refine ⟨hcount, hcircle, ((resolve_follows_walk circle "a").2 hcount).2 hcircle, fun hc => ?_⟩
  obtain ⟨detail, hlimit⟩ := ((resolve_follows_walk circle "c").2 hcount).2 hc
  rw [hred] at hlimit
  cases hlimit

end Stylesheet.Scope
