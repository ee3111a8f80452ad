import Stylesheet.Proofs.Evaluation.Rules

/-!
# Runs that match up to limits

How much a session has counted shows in a run only where a limit is exceeded. Two runs match if one
of them exceeds a limit, or both give the same result, or both fail; an error need not be the same
one, since the work may be done in another order. Work that differs only in what it has counted and
in its room for inclusions matches itself.

* `Matched`, `Matches`: two runs, and work that matches from all sessions of one depth.
* `matches_expandIncludeIn`: inclusions are expanded alike.
* `matches_evalNodesIn`: the items of a block are evaluated alike.
-/

namespace Stylesheet

/-- What two runs that end at the depth `d` have in common. -/
inductive Matched (d : Nat) {α : Type} :
    Except CompileError α × Session → Except CompileError α × Session → Prop
  | leftExceeds (limit : Limit) (detail : String) (s : Session)
      (r : Except CompileError α × Session) : Matched d (.error (.limitExceeded limit detail), s) r
  | rightExceeds (limit : Limit) (detail : String) (l : Except CompileError α × Session)
      (t : Session) : Matched d l (.error (.limitExceeded limit detail), t)
  | same (a : α) {s t : Session} (hs : s.depth = d) (ht : t.depth = d) :
      Matched d (.ok a, s) (.ok a, t)
  | fail (e e' : CompileError) (s t : Session) : Matched d (.error e, s) (.error e', t)

/-- The runs from any two sessions of depth `d` match. -/
def Matches (d : Nat) {α : Type} (f g : Metered α) : Prop :=
  ∀ ⦃s t : Session⦄, s.depth = d → t.depth = d → Matched d (f s) (g t)

section Matches

variable {d : Nat} {α β : Type} {f g : Metered α}

theorem Matched.symm {l r : Except CompileError α × Session} (h : Matched d l r) :
    Matched d r l := by
  cases h with
  | leftExceeds limit detail s r => exact .rightExceeds limit detail r s
  | rightExceeds limit detail l t => exact .leftExceeds limit detail t l
  | same a hs ht => exact .same a ht hs
  | fail e e' s t => exact .fail e' e t s

theorem matches_pure (a : α) : Matches d (pure a : Metered α) (pure a) :=
  fun _ _ hs ht => .same a hs ht

theorem Matches.bind {next next' : α → Metered β} (h : Matches d f g)
    (hnext : ∀ a s t, f s = (.ok a, t) → Matches d (next a) (next' a)) :
    Matches d (f >>= next) (g >>= next') := by
  intro s t hs ht
  have hfirst := h hs ht
  rcases hf : f s with ⟨l, s'⟩
  rcases hg : g t with ⟨r, t'⟩
  rw [hf, hg] at hfirst
  cases hfirst with
  | leftExceeds limit detail =>
    rw [work_bind_error hf]
    exact .leftExceeds limit detail s' _
  | rightExceeds limit detail =>
    rw [work_bind_error hg]
    exact .rightExceeds limit detail _ t'
  | same a hs' ht' =>
    rw [work_bind_ok hf, work_bind_ok hg]
    exact hnext a s s' hf hs' ht'
  | fail e e' =>
    rw [work_bind_error hf, work_bind_error hg]
    exact .fail e e' s' t'

theorem Reduces.matches {u : Nat → Scribe α} (h : Reduces u f d) : Matches d f f := by
  obtain ⟨o, hf, -⟩ := h
  intro s t hs ht
  rw [hf s hs, hf t ht]
  cases o with
  | error e => exact .fail e e s t
  | ok a => exact .same a hs ht

theorem matches_ofExcept (o : Except CompileError α) :
    Matches d (Metered.ofExcept o) (Metered.ofExcept o) :=
  (Reduces.ofExcept o d).matches

theorem Matches.depth_eq (h : Matches d f f) {s t : Session} {a : α} (hs : s.depth = d)
    (ha : f s = (.ok a, t)) : t.depth = d := by
  have hrun := h hs hs
  rw [ha] at hrun
  cases hrun with
  | same _ ht _ => exact ht

end Matches

/-! ## Counting -/

section Counting

variable {d : Nat}

theorem matched_check (limit : Limit) (detail : String) {m n : Nat} {s t : Session}
    (hs : s.depth = d) (ht : t.depth = d) :
    Matched d (Metered.check limit m detail s) (Metered.check limit n detail t) := by
  unfold Metered.check
  by_cases hm : limit.max < m
  · rw [if_pos hm]
    exact .leftExceeds limit detail s _
  · by_cases hn : limit.max < n
    · rw [if_pos hn]
      exact .rightExceeds limit detail _ t
    · rw [if_neg hm, if_neg hn]
      exact .same () hs ht

theorem matches_countInclude (name : String) :
    Matches d (Metered.countInclude name) (Metered.countInclude name) :=
  fun _ _ hs ht => matched_check .includes name hs ht

theorem matches_countNode : Matches d Metered.countNode Metered.countNode :=
  fun _ _ hs ht => matched_check .nodes "" hs ht

end Counting

/-! ## Inclusions -/

section Inclusions

variable {d : Nat} {expand expand' : Inclusion → Metered (List Node)}

mutual

theorem matches_spliceNode (h : ∀ i, Matches d (expand i) (expand' i)) : (node : Node) →
    Matches d (spliceNode expand node) (spliceNode expand' node)
  | .inclusion i => by
    rw [spliceNode, spliceNode]
    exact h i
  | .block (.style _ _) body => by
    rw [spliceNode, spliceNode]
    exact (matches_spliceNodes h body).bind fun _ _ _ _ => matches_pure _
  | .block (.media _) _ => matches_pure _
  | .block .fontFace _ => matches_pure _
  | .block (.keyframes _) _ => matches_pure _
  | .block (.atRule _ _) _ => matches_pure _
  | .statement _ _ => matches_pure _
  | .importRule _ => matches_pure _
  | .declaration _ => matches_pure _
  | .assignment _ => matches_pure _
  | .comment _ => matches_pure _
  | .mixin _ _ _ => matches_pure _
  | .branch _ _ _ => matches_pure _
  | .loop _ _ _ _ _ => matches_pure _

theorem matches_spliceNodes (h : ∀ i, Matches d (expand i) (expand' i)) : (nodes : List Node) →
    Matches d (spliceNodes expand nodes) (spliceNodes expand' nodes)
  | [] => by
    rw [spliceNodes, spliceNodes]
    exact matches_pure []
  | node :: nodes => by
    rw [spliceNodes, spliceNodes]
    refine (matches_spliceNode h node).bind fun _ _ _ _ => ?_
    exact (matches_spliceNodes h nodes).bind fun _ _ _ _ => matches_pure _

end

theorem expandIncludeIn_zero (layers : List Registry) (scope : Scope) (i : Inclusion)
    (s : Session) : expandIncludeIn layers scope 0 i s =
      (.error (.limitExceeded .includes i.name), s.bump .includes) := by
  have hcount : Metered.countInclude i.name s =
      Metered.check .includes (s.includes + 1) i.name (s.bump .includes) := rfl
  rw [expandIncludeIn]
  by_cases hlimit : Limit.includes.max < s.includes + 1
  · rw [Metered.check, if_pos hlimit] at hcount
    exact work_bind_error hcount
  · rw [Metered.check, if_neg hlimit] at hcount
    exact work_bind_ok hcount

/-- Room for inclusions shows only where the limit is exceeded. -/
theorem matches_expandIncludeIn (layers : List Registry) (scope : Scope) (n n' : Nat)
    (i : Inclusion) :
    Matches d (expandIncludeIn layers scope n i) (expandIncludeIn layers scope n' i) := by
  induction n generalizing n' i with
  | zero =>
    intro s t _ _
    rw [expandIncludeIn_zero]
    exact .leftExceeds .includes i.name _ _
  | succ n ih =>
    cases n' with
    | zero =>
      intro s t _ _
      rw [expandIncludeIn_zero]
      exact .rightExceeds .includes i.name _ _
    | succ n' =>
      rw [expandIncludeIn_succ, expandIncludeIn_succ]
      have hbody : Matches d (inclusionBody layers scope i) (inclusionBody layers scope i) :=
        (matches_countInclude i.name).bind fun _ _ _ _ => matches_ofExcept _
      exact hbody.bind fun body _ _ _ => matches_spliceNodes (ih n') body

end Inclusions

/-! ## Items of a block -/

section Items

variable {d : Nat} {env : Environment} {enter enter' : Environment.Run} {scope : Scope}

theorem matches_runLoop {run run' : Scope → Metered (List Node × Scope)} {counter : String}
    {range : List Int} (inside : List Int → Scope → Prop) (hstart : inside [] scope.child)
    (hrun : ∀ done k rest inner, range = done ++ k :: rest → inside done inner →
      Matches d (run (inner.set counter (.number (Binary.ofInt k))))
        (run' (inner.set counter (.number (Binary.ofInt k)))))
    (hround : ∀ done k inner out inner' s t, inside done inner →
      run (inner.set counter (.number (Binary.ofInt k))) s = (.ok (out, inner'), t) →
      inside (done ++ [k]) inner') :
    Matches d (Environment.runLoop run counter scope range)
      (Environment.runLoop run' counter scope range) := by
  refine Matches.bind ?_ fun _ _ _ _ => matches_pure _
  -- The invariant relates the rounds that are done to the scope that they leave.
  have hrounds : ∀ rest done parts inner, range = done ++ rest → inside done inner →
      Matches d
        (rest.foldlM (fun (acc : List (List Node) × Scope) k => do
          let round ← run (acc.2.set counter (.number (Binary.ofInt k)))
          return (round.1 :: acc.1, round.2)) (parts, inner))
        (rest.foldlM (fun (acc : List (List Node) × Scope) k => do
          let round ← run' (acc.2.set counter (.number (Binary.ofInt k)))
          return (round.1 :: acc.1, round.2)) (parts, inner)) := by
    intro rest
    induction rest with
    | nil => exact fun _ _ _ _ _ => matches_pure _
    | cons k rest ih =>
      intro done parts inner hrange hinside
      rw [List.foldlM_cons, List.foldlM_cons]
      refine Matches.bind ((hrun done k rest inner hrange hinside).bind fun _ _ _ _ =>
        matches_pure _) fun acc s t hacc => ?_
      obtain ⟨⟨out, inner'⟩, u, hout, hacc⟩ := Gives.of_bind hacc
      obtain ⟨rfl, rfl⟩ := hacc.of_pure
      have hinside' := hround done k inner out inner' s t hinside hout
      refine ih (done ++ [k]) (out :: parts) inner' ?_ hinside'
      rw [hrange, List.append_assoc]
      rfl
  exact hrounds range [] [] scope.child rfl hstart

theorem matches_block {head : Head} {body body' : List Node}
    (hbody : ∀ head' s t, env.resolveHead scope head s = (.ok head', t) →
      Matches d (env.evalNodesBy enter body scope.child)
        (env.evalNodesBy enter' body' scope.child)) :
    Matches d (env.evalNodeBy enter (.block head body) scope)
      (env.evalNodeBy enter' (.block head body') scope) := by
  rw [Environment.evalNodeBy, Environment.evalNodeBy]
  refine (reduces_resolveHead env head d).matches.bind fun head' s t hhead => ?_
  exact (hbody head' s t hhead).bind fun _ _ _ _ => matches_pure _

theorem matches_branch {condition : Value} {body body' otherwise otherwise' : List Node}
    (hbody : ∀ s t, env.chooseBranch scope condition s = (.ok true, t) →
      Matches d (env.evalNodesBy enter body scope) (env.evalNodesBy enter' body' scope))
    (hotherwise : ∀ s t, env.chooseBranch scope condition s = (.ok false, t) →
      Matches d (env.evalNodesBy enter otherwise scope)
        (env.evalNodesBy enter' otherwise' scope)) :
    Matches d (env.evalNodeBy enter (.branch condition body otherwise) scope)
      (env.evalNodeBy enter' (.branch condition body' otherwise') scope) := by
  rw [Environment.evalNodeBy, Environment.evalNodeBy]
  refine (reduces_chooseBranch env condition d).matches.bind fun chosen s t hchosen => ?_
  cases chosen with
  | true => exact hbody s t hchosen
  | false => exact hotherwise s t hchosen

theorem matches_cons {node node' : Node} {nodes nodes' : List Node}
    (hnode : Matches d (env.evalNodeBy enter node scope) (env.evalNodeBy enter' node' scope))
    (hnodes : ∀ out scope' s t, env.evalNodeBy enter node scope s = (.ok (out, scope'), t) →
      Matches d (env.evalNodesBy enter nodes scope') (env.evalNodesBy enter' nodes' scope')) :
    Matches d (env.evalNodesBy enter (node :: nodes) scope)
      (env.evalNodesBy enter' (node' :: nodes') scope) := by
  rw [Environment.evalNodesBy, Environment.evalNodesBy]
  refine hnode.bind fun first s t hfirst => ?_
  exact (hnodes first.1 first.2 s t hfirst).bind fun _ _ _ _ => matches_pure _

mutual

theorem matches_evalNodeBy
    (henter : ∀ body scope, Matches d (enter body scope) (enter' body scope)) :
    (node : Node) → (scope : Scope) →
    Matches d (env.evalNodeBy enter node scope) (env.evalNodeBy enter' node scope)
  | .declaration d, scope => by
    rw [Environment.evalNodeBy, Environment.evalNodeBy]
    refine matches_countNode.bind fun _ _ _ _ => ?_
    exact (reduces_resolve (evaluationDepth_le_levels _) _).matches.bind fun _ _ _ _ =>
      matches_pure _
  | .branch condition body otherwise, scope =>
    matches_branch (fun _ _ _ => matches_evalNodesBy henter body scope)
      fun _ _ _ => matches_evalNodesBy henter otherwise scope
  | .loop counter first last inclusive body, scope => by
    rw [Environment.evalNodeBy, Environment.evalNodeBy]
    refine (reduces_loopRange env first last inclusive d).matches.bind fun range _ _ _ => ?_
    refine Matches.bind ?_ fun _ _ _ _ => matches_pure _
    exact matches_runLoop (fun _ _ => True) trivial
      (fun _ _ _ _ _ _ => matches_evalNodesBy henter body _) fun _ _ _ _ _ _ _ _ _ => trivial
  | .inclusion i, scope => by
    rw [Environment.evalNodeBy, Environment.evalNodeBy]
    exact (matches_expandIncludeIn env.layers scope _ _ i).bind fun body _ _ _ => henter body scope
  | .block head body, scope =>
    matches_block fun _ _ _ _ => matches_evalNodesBy henter body scope.child
  | .assignment _, _ => matches_pure _
  | .statement _ _, _ => matches_pure _
  | .importRule _, _ => matches_pure _
  | .comment _, _ => matches_pure _
  | .mixin _ _ _, _ => matches_pure _

theorem matches_evalNodesBy
    (henter : ∀ body scope, Matches d (enter body scope) (enter' body scope)) :
    (nodes : List Node) → (scope : Scope) →
    Matches d (env.evalNodesBy enter nodes scope) (env.evalNodesBy enter' nodes scope)
  | [], _ => matches_pure _
  | node :: nodes, scope =>
    matches_cons (matches_evalNodeBy henter node scope) fun _ scope' _ _ _ =>
      matches_evalNodesBy henter nodes scope'

end

/-- The items of a block are evaluated alike with any room for inclusions. -/
theorem matches_evalNodesIn (env : Environment) (k k' : Nat) (nodes : List Node) (scope : Scope) :
    Matches d (env.evalNodesIn k nodes scope) (env.evalNodesIn k' nodes scope) := by
  induction k generalizing k' nodes scope with
  | zero =>
    obtain ⟨enter', henter'⟩ := evalNodesIn_eq_evalNodesBy env k'
    rw [henter']
    exact matches_evalNodesBy (fun _ _ s _ _ _ => .leftExceeds .includes "" s _) nodes scope
  | succ k ih =>
    cases k' with
    | zero =>
      exact matches_evalNodesBy (fun _ _ _ t _ _ => .rightExceeds .includes "" _ t) nodes scope
    | succ k' => exact matches_evalNodesBy (ih k') nodes scope

end Items

end Stylesheet
