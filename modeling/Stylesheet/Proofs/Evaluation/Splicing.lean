import Stylesheet.Proofs.Evaluation.Matching

/-!
# Bodies in place of inclusions

An inclusion in a rule is expanded when it is reached, and all that its mixin includes directly or
in nested style rules is expanded with it, in the scope of the inclusion. Where the mixin has no
parameters this is the same as its body in place of the inclusion, as long as the assignments of the
body change nothing in what it includes.

* `Spliced`: nodes in which bodies stand in place of inclusions.
* `Reaches`: the inclusions that a run comes to, and the scopes that it comes to them in.
* `Spliced.matches`: both nodes give the same, if each inclusion gives the same as its body.
* `evalNodes_splice`: an inclusion of a mixin without parameters and its body.
-/

namespace Stylesheet

/-- Nodes in which some inclusions are replaced by bodies that belong to them, here and in the nodes
that `enters` allows. -/
inductive Spliced (enters : Node → Prop) (belongs : Inclusion → List Node → Prop) :
    List Node → List Node → Prop
  | nil : Spliced enters belongs [] []
  | keep (node : Node) {nodes nodes' : List Node} (hnodes : Spliced enters belongs nodes nodes') :
      Spliced enters belongs (node :: nodes) (node :: nodes')
  | splice {i : Inclusion} {body nodes nodes' : List Node} (hbody : belongs i body)
      (hnodes : Spliced enters belongs nodes nodes') :
      Spliced enters belongs (.inclusion i :: nodes) (body ++ nodes')
  | block {head : Head} {body body' nodes nodes' : List Node} (henters : enters (.block head body))
      (hbody : Spliced enters belongs body body') (hnodes : Spliced enters belongs nodes nodes') :
      Spliced enters belongs (.block head body :: nodes) (.block head body' :: nodes')
  | branch {condition : Value} {body body' otherwise otherwise' nodes nodes' : List Node}
      (henters : enters (.branch condition body otherwise))
      (hbody : Spliced enters belongs body body')
      (hotherwise : Spliced enters belongs otherwise otherwise')
      (hnodes : Spliced enters belongs nodes nodes') :
      Spliced enters belongs (.branch condition body otherwise :: nodes)
        (.branch condition body' otherwise' :: nodes')
  | loop {counter : String} {first last : Value} {inclusive : Bool}
      {body body' nodes nodes' : List Node}
      (henters : enters (.loop counter first last inclusive body))
      (hbody : Spliced enters belongs body body') (hnodes : Spliced enters belongs nodes nodes') :
      Spliced enters belongs (.loop counter first last inclusive body :: nodes)
        (.loop counter first last inclusive body' :: nodes')

/-- Rounds of a loop, from the scope before the first to the scope after the last. -/
inductive Rounds (env : Environment) (counter : String) (body : List Node) :
    List Int → Scope → Scope → Prop
  | none (scope : Scope) : Rounds env counter body [] scope scope
  | next {done : List Int} {k : Int} {scope inner inner' : Scope} {out : List Node} {s t : Session}
      (hdone : Rounds env counter body done scope inner)
      (hround : env.evalNodes body (inner.set counter (.number (Binary.ofInt k))) s =
        (.ok (out, inner'), t)) :
      Rounds env counter body (done ++ [k]) scope inner'

/-- A run of some nodes in `scope` comes to an inclusion in a scope, here or in the nodes that
`enters` allows. -/
inductive Reaches (env : Environment) (enters : Node → Prop) :
    List Node → Scope → Inclusion → Scope → Prop
  | here (i : Inclusion) (nodes : List Node) (scope : Scope) :
      Reaches env enters (.inclusion i :: nodes) scope i scope
  | later {node : Node} {nodes out : List Node} {scope scope' inner : Scope} {s t : Session}
      {i : Inclusion} (hnode : env.evalNodes [node] scope s = (.ok (out, scope'), t))
      (h : Reaches env enters nodes scope' i inner) :
      Reaches env enters (node :: nodes) scope i inner
  | block {head head' : Head} {body nodes : List Node} {scope inner : Scope} {s t : Session}
      {i : Inclusion} (henters : enters (.block head body))
      (hhead : env.resolveHead scope head s = (.ok head', t))
      (h : Reaches env enters body scope.child i inner) :
      Reaches env enters (.block head body :: nodes) scope i inner
  | branch {condition : Value} {body otherwise nodes : List Node} {scope inner : Scope}
      {s t : Session} {i : Inclusion} {chosen : Bool}
      (henters : enters (.branch condition body otherwise))
      (hchosen : env.chooseBranch scope condition s = (.ok chosen, t))
      (h : Reaches env enters (if chosen then body else otherwise) scope i inner) :
      Reaches env enters (.branch condition body otherwise :: nodes) scope i inner
  | loop {counter : String} {first last : Value} {inclusive : Bool} {body nodes : List Node}
      {scope inner last' : Scope} {s t : Session} {i : Inclusion} {done rest : List Int} {k : Int}
      (henters : enters (.loop counter first last inclusive body))
      (hrange : env.loopRange scope first last inclusive s = (.ok (done ++ k :: rest), t))
      (hdone : Rounds env counter body done scope.child inner)
      (h : Reaches env enters body (inner.set counter (.number (Binary.ofInt k))) i last') :
      Reaches env enters (.loop counter first last inclusive body :: nodes) scope i last'

/-! ## Runs of spliced nodes -/

section Splice

variable {d : Nat} {env : Environment} {enter : Environment.Run} {scope : Scope}
  {enters : Node → Prop} {belongs : Inclusion → List Node → Prop}

theorem evalNodesBy_singleton (env : Environment) (enter : Environment.Run) (node : Node)
    (scope : Scope) : env.evalNodesBy enter [node] scope = env.evalNodeBy enter node scope := by
  simp [Environment.evalNodesBy]

theorem evalNodesBy_append (env : Environment) (enter : Environment.Run) (ns ms : List Node)
    (scope : Scope) : env.evalNodesBy enter (ns ++ ms) scope = (do
      let first ← env.evalNodesBy enter ns scope
      let rest ← env.evalNodesBy enter ms first.2
      return (first.1 ++ rest.1, rest.2)) := by
  induction ns generalizing scope with
  | nil => simp [Environment.evalNodesBy]
  | cons n ns ih => simp [Environment.evalNodesBy, ih]

theorem evalNodes_cons (env : Environment) (node : Node) (nodes : List Node) (scope : Scope) :
    env.evalNodes (node :: nodes) scope = (do
      let first ← env.evalNodes [node] scope
      let rest ← env.evalNodes nodes first.2
      return (first.1 ++ rest.1, rest.2)) :=
  evalNodesBy_append env _ [node] nodes scope

theorem exists_enter_matches (env : Environment) (d k : Nat) :
    ∃ enter, env.evalNodesIn k = env.evalNodesBy enter ∧
      ∀ body scope, Matches d (env.evalNodesIn 999 body scope) (enter body scope) := by
  cases k with
  | zero => exact ⟨_, rfl, fun _ _ _ t _ _ => .rightExceeds .includes "" _ t⟩
  | succ k => exact ⟨_, rfl, matches_evalNodesIn env 999 k⟩

theorem Spliced.matches_evalNodesBy {nodes nodes' : List Node}
    (h : Spliced enters belongs nodes nodes')
    (henter : ∀ body scope, Matches d (env.evalNodesIn 999 body scope) (enter body scope))
    (hbelongs : ∀ i body inner, Reaches env enters nodes scope i inner → belongs i body →
      Matches d (env.evalNodes [.inclusion i] inner) (env.evalNodesBy enter body inner)) :
    Matches d (env.evalNodes nodes scope) (env.evalNodesBy enter nodes' scope) := by
  have hrun : env.evalNodes = env.evalNodesBy (env.evalNodesIn 999) := rfl
  have hstep {node : Node} {scope scope' : Scope} {out : List Node} {s t : Session}
      (h : env.evalNodeBy (env.evalNodesIn 999) node scope s = (.ok (out, scope'), t)) :
      env.evalNodes [node] scope s = (.ok (out, scope'), t) := by
    rw [hrun, evalNodesBy_singleton]
    exact h
  induction h generalizing scope with
  | nil => exact matches_pure _
  | keep node _ ih =>
    refine matches_cons (matches_evalNodeBy henter node scope) fun _ _ _ _ hnode => ?_
    exact ih fun i body inner hreach => hbelongs i body inner (.later (hstep hnode) hreach)
  | splice hbody _ ih =>
    rename_i i body nodes nodes' _
    have hfirst := hbelongs i body scope (.here i nodes scope) hbody
    rw [evalNodes_cons, evalNodesBy_append]
    refine hfirst.bind fun first s t hfirst => ?_
    refine (ih fun i body inner hreach => ?_).bind fun _ _ _ _ => matches_pure _
    exact hbelongs i body inner (.later hfirst hreach)
  | block henters _ _ ihbody ihnodes =>
    refine matches_cons (matches_block fun head' s t hhead => ?_) fun _ _ _ _ hnode => ?_
    · exact ihbody fun i body inner hreach => hbelongs i body inner (.block henters hhead hreach)
    · exact ihnodes fun i body inner hreach => hbelongs i body inner (.later (hstep hnode) hreach)
  | branch henters _ _ _ ihbody ihotherwise ihnodes =>
    refine matches_cons (matches_branch (fun s t hchosen => ?_) fun s t hchosen => ?_)
      fun _ _ _ _ hnode => ?_
    · exact ihbody fun i body inner hreach =>
        hbelongs i body inner (.branch henters hchosen (by simpa using hreach))
    · exact ihotherwise fun i body inner hreach =>
        hbelongs i body inner (.branch henters hchosen (by simpa using hreach))
    · exact ihnodes fun i body inner hreach => hbelongs i body inner (.later (hstep hnode) hreach)
  | loop henters _ _ ihbody ihnodes =>
    rename_i counter first last inclusive body body' nodes nodes' _ _
    refine matches_cons ?_ fun _ _ _ _ hnode => ?_
    · rw [Environment.evalNodeBy, Environment.evalNodeBy]
      refine (reduces_loopRange env first last inclusive d).matches.bind fun range s t hrange => ?_
      refine Matches.bind ?_ fun _ _ _ _ => matches_pure _
      refine matches_runLoop (fun done inner => Rounds env counter body done scope.child inner)
        (.none _) (fun done k rest inner hsplit hdone => ?_)
        fun done k inner out inner' s t hdone hround => .next hdone hround
      rw [hsplit] at hrange
      exact ihbody fun i body inner hreach =>
        hbelongs i body inner (.loop henters hrange hdone hreach)
    · exact ihnodes fun i body inner hreach => hbelongs i body inner (.later (hstep hnode) hreach)

/-- Nodes and spliced nodes give the same, if every inclusion that is reached gives the same as the
bodies that belong to it. -/
theorem Spliced.matches {nodes nodes' : List Node} (k : Nat)
    (h : Spliced enters belongs nodes nodes')
    (hbelongs : ∀ i body inner, Reaches env enters nodes scope i inner → belongs i body →
      Matches d (env.evalNodes [.inclusion i] inner) (env.evalNodesIn k body inner)) :
    Matches d (env.evalNodes nodes scope) (env.evalNodesIn k nodes' scope) := by
  obtain ⟨enter, hk, henter⟩ := exists_enter_matches env d k
  rw [hk] at hbelongs ⊢
  exact h.matches_evalNodesBy henter hbelongs

end Splice

/-! ## Expanded bodies -/

def Node.IsStyleRule : Node → Prop
  | .block (.style _ _) _ => True
  | _ => False

section Expanded

variable {d : Nat} {env : Environment} {outer scope : Scope} {n : Nat}

/-- An expansion of an inclusion with some room. -/
def Expands (layers : List Registry) (scope : Scope) (d n : Nat) (i : Inclusion)
    (body : List Node) : Prop :=
  ∃ s t : Session, s.depth = d ∧ expandIncludeIn layers scope n i s = (.ok body, t)

mutual

theorem spliced_of_spliceNode {layers : List Registry} : (node : Node) →
    {out nodes nodes' : List Node} → {s t : Session} → s.depth = d →
    Gives (spliceNode (expandIncludeIn layers outer n) node) s out t →
    Spliced Node.IsStyleRule (Expands layers outer d n) nodes nodes' →
    Spliced Node.IsStyleRule (Expands layers outer d n) (node :: nodes) (out ++ nodes')
  | .inclusion i, out, nodes, nodes', s, t, hs, h, hnodes => by
    rw [spliceNode] at h
    exact .splice ⟨s, t, hs, h⟩ hnodes
  | .block (.style selector depth) body, out, nodes, nodes', s, t, hs, h, hnodes => by
    rw [spliceNode] at h
    obtain ⟨body', u, hbody, h⟩ := h.of_bind
    obtain ⟨rfl, -⟩ := h.of_pure
    exact .block trivial (spliced_of_spliceNodes body hs hbody) hnodes
  | .block (.media _) _, _, _, _, _, _, _, h, hnodes => by cases h; exact .keep _ hnodes
  | .block .fontFace _, _, _, _, _, _, _, h, hnodes => by cases h; exact .keep _ hnodes
  | .block (.keyframes _) _, _, _, _, _, _, _, h, hnodes => by cases h; exact .keep _ hnodes
  | .block (.atRule _ _) _, _, _, _, _, _, _, h, hnodes => by cases h; exact .keep _ hnodes
  | .statement _ _, _, _, _, _, _, _, h, hnodes => by cases h; exact .keep _ hnodes
  | .importRule _, _, _, _, _, _, _, h, hnodes => by cases h; exact .keep _ hnodes
  | .declaration _, _, _, _, _, _, _, h, hnodes => by cases h; exact .keep _ hnodes
  | .assignment _, _, _, _, _, _, _, h, hnodes => by cases h; exact .keep _ hnodes
  | .comment _, _, _, _, _, _, _, h, hnodes => by cases h; exact .keep _ hnodes
  | .mixin _ _ _, _, _, _, _, _, _, h, hnodes => by cases h; exact .keep _ hnodes
  | .branch _ _ _, _, _, _, _, _, _, h, hnodes => by cases h; exact .keep _ hnodes
  | .loop _ _ _ _ _, _, _, _, _, _, _, h, hnodes => by cases h; exact .keep _ hnodes

theorem spliced_of_spliceNodes {layers : List Registry} : (nodes : List Node) → {out : List Node} →
    {s t : Session} → s.depth = d →
    Gives (spliceNodes (expandIncludeIn layers outer n) nodes) s out t →
    Spliced Node.IsStyleRule (Expands layers outer d n) nodes out
  | [], out, s, t, hs, h => by
    rw [spliceNodes] at h
    obtain ⟨rfl, -⟩ := h.of_pure
    exact .nil
  | node :: nodes, out, s, t, hs, h => by
    rw [spliceNodes] at h
    obtain ⟨first, u, hfirst, h⟩ := h.of_bind
    obtain ⟨rest, v, hrest, h⟩ := h.of_bind
    obtain ⟨rfl, -⟩ := h.of_pure
    have hu : u.depth = d :=
      (matches_spliceNode (matches_expandIncludeIn layers outer n n) node).depth_eq hs hfirst
    exact spliced_of_spliceNode node hs hfirst (spliced_of_spliceNodes nodes hu hrest)

end

theorem evalNodes_inclusion (env : Environment) (i : Inclusion) (scope : Scope) :
    env.evalNodes [.inclusion i] scope =
      expandInclude env.layers scope i >>= fun body => env.evalNodesIn 999 body scope := by
  have hrun : env.evalNodes = env.evalNodesBy (env.evalNodesIn 999) := rfl
  rw [hrun, evalNodesBy_singleton, Environment.evalNodeBy]

/-- The nodes and their expansion in another scope give the same, if all that is expanded there
expands alike where it is reached. -/
theorem matches_expanded {nodes out : List Node} {s t : Session} (hs : s.depth = d)
    (hout : spliceNodes (expandIncludeIn env.layers outer n) nodes s = (.ok out, t))
    (hsame : ∀ i inner, Reaches env Node.IsStyleRule nodes scope i inner →
      expandInclude env.layers inner i = expandInclude env.layers outer i) :
    Matches d (env.evalNodes nodes scope) (env.evalNodesIn 999 out scope) := by
  refine (spliced_of_spliceNodes nodes hs hout).matches 999 fun i body inner hreach hbody => ?_
  obtain ⟨u, v, hu, hexpand⟩ := hbody
  intro s t hs ht
  rw [evalNodes_inclusion, hsame i inner hreach]
  have hmatched := matches_expandIncludeIn env.layers outer n Limit.includes.max i hu hs
  rcases hinner : expandInclude env.layers outer i s with ⟨o, w⟩
  rw [hexpand, ← expandInclude, hinner] at hmatched
  cases hmatched with
  | rightExceeds limit detail =>
    rw [work_bind_error hinner]
    exact .leftExceeds limit detail w _
  | same _ _ hw =>
    rw [work_bind_ok hinner]
    exact matches_evalNodesIn env 999 999 body inner hw ht

/-! ## Expansions that fail -/

/-- Work that fails from all sessions of depth `d`. -/
def Fails (d : Nat) {α : Type} (f : Metered α) : Prop :=
  ∀ ⦃s : Session⦄, s.depth = d → ∃ e t, f s = (.error e, t)

theorem Fails.bind {α β : Type} {f : Metered α} (hf : Fails d f) (next : α → Metered β) :
    Fails d (f >>= next) := by
  intro s hs
  obtain ⟨e, t, h⟩ := hf hs
  exact ⟨e, t, work_bind_error h⟩

theorem Fails.of_bind {α β : Type} {f : Metered α} {next : α → Metered β} (hf : Matches d f f)
    (hnext : ∀ a s t, f s = (.ok a, t) → Fails d (next a)) : Fails d (f >>= next) := by
  intro s hs
  rcases h : f s with ⟨o, t⟩
  cases o with
  | error e => exact ⟨e, t, work_bind_error h⟩
  | ok a =>
    obtain ⟨e, u, hfail⟩ := hnext a s t h (hf.depth_eq hs h)
    exact ⟨e, u, (work_bind_ok h).trans hfail⟩

theorem error_of_bind {α β : Type} {f : Metered α} {next : α → Metered β} {s t : Session}
    {e : CompileError} (h : (f >>= next) s = (.error e, t)) :
    f s = (.error e, t) ∨ ∃ a u, f s = (.ok a, u) ∧ next a u = (.error e, t) := by
  rcases hf : f s with ⟨o, u⟩
  cases o with
  | error e' =>
    rw [work_bind_error hf] at h
    cases h
    exact .inl rfl
  | ok a =>
    rw [work_bind_ok hf] at h
    exact .inr ⟨a, u, rfl, h⟩

theorem Reaches.of_singleton {enters : Node → Prop} {node : Node} {i : Inclusion} {inner : Scope}
    (h : Reaches env enters [node] scope i inner) (nodes : List Node) :
    Reaches env enters (node :: nodes) scope i inner := by
  cases h with
  | here => exact .here i nodes scope
  | later _ h => cases h
  | block henters hhead h => exact .block henters hhead h
  | branch henters hchosen h => exact .branch henters hchosen h
  | loop henters hrange hdone h => exact .loop henters hrange hdone h

mutual

theorem fails_of_spliceNode : (node : Node) → {scope : Scope} → {e : CompileError} →
    {s t : Session} → s.depth = d →
    spliceNode (expandIncludeIn env.layers outer n) node s = (.error e, t) →
    (∀ limit detail, e ≠ .limitExceeded limit detail) →
    (∀ i inner, Reaches env Node.IsStyleRule [node] scope i inner →
      expandInclude env.layers inner i = expandInclude env.layers outer i) →
    Fails d (env.evalNodes [node] scope)
  | .inclusion i, scope, e, s, t, hs, h, hlimit, hsame => by
    rw [spliceNode] at h
    rw [evalNodes_inclusion, hsame i scope (.here i [] scope)]
    refine Fails.bind (fun u hu => ?_) _
    have hmatched := matches_expandIncludeIn env.layers outer n Limit.includes.max i hs hu
    rcases hinner : expandInclude env.layers outer i u with ⟨o, v⟩
    rw [h, ← expandInclude, hinner] at hmatched
    cases hmatched with
    | leftExceeds limit detail => exact absurd rfl (hlimit limit detail)
    | rightExceeds limit detail => exact ⟨_, v, rfl⟩
    | fail _ e' => exact ⟨e', v, rfl⟩
  | .block (.style selector depth) body, scope, e, s, t, hs, h, hlimit, hsame => by
    rw [spliceNode] at h
    obtain hbody | ⟨_, _, _, hpure⟩ := error_of_bind h
    · have hrun : env.evalNodes = env.evalNodesBy (env.evalNodesIn 999) := rfl
      rw [hrun, evalNodesBy_singleton, Environment.evalNodeBy]
      refine .of_bind (reduces_resolveHead env _ d).matches fun head' u v hhead => ?_
      exact (fails_of_spliceNodes body hs hbody hlimit fun i inner hreach =>
        hsame i inner (.block trivial hhead hreach)).bind _
    · cases hpure
  | .block (.media _) _, _, _, _, _, _, h, _, _ => by cases h
  | .block .fontFace _, _, _, _, _, _, h, _, _ => by cases h
  | .block (.keyframes _) _, _, _, _, _, _, h, _, _ => by cases h
  | .block (.atRule _ _) _, _, _, _, _, _, h, _, _ => by cases h
  | .statement _ _, _, _, _, _, _, h, _, _ => by cases h
  | .importRule _, _, _, _, _, _, h, _, _ => by cases h
  | .declaration _, _, _, _, _, _, h, _, _ => by cases h
  | .assignment _, _, _, _, _, _, h, _, _ => by cases h
  | .comment _, _, _, _, _, _, h, _, _ => by cases h
  | .mixin _ _ _, _, _, _, _, _, h, _, _ => by cases h
  | .branch _ _ _, _, _, _, _, _, h, _, _ => by cases h
  | .loop _ _ _ _ _, _, _, _, _, _, h, _, _ => by cases h

/-- Nodes that cannot be expanded in another scope fail, if all that is expanded there expands alike
where it is reached. -/
theorem fails_of_spliceNodes : (nodes : List Node) → {scope : Scope} → {e : CompileError} →
    {s t : Session} → s.depth = d →
    spliceNodes (expandIncludeIn env.layers outer n) nodes s = (.error e, t) →
    (∀ limit detail, e ≠ .limitExceeded limit detail) →
    (∀ i inner, Reaches env Node.IsStyleRule nodes scope i inner →
      expandInclude env.layers inner i = expandInclude env.layers outer i) →
    Fails d (env.evalNodes nodes scope)
  | [], scope, e, s, t, hs, h, hlimit, hsame => by
    rw [spliceNodes] at h
    cases h
  | node :: nodes, scope, e, s, t, hs, h, hlimit, hsame => by
    rw [spliceNodes] at h
    obtain hnode | ⟨first, u, hfirst, h⟩ := error_of_bind h
    · have hfails := fails_of_spliceNode node hs hnode hlimit fun i inner hreach =>
        hsame i inner (hreach.of_singleton nodes)
      rw [evalNodes_cons]
      exact hfails.bind _
    · have hu : u.depth = d :=
        (matches_spliceNode (matches_expandIncludeIn env.layers outer n n) node).depth_eq hs hfirst
      obtain hnodes | ⟨_, _, _, hpure⟩ := error_of_bind h
      · rw [evalNodes_cons]
        refine .of_bind (matches_evalNodesIn env _ _ [node] scope) fun first v w hrun => ?_
        exact (fails_of_spliceNodes nodes hu hnodes hlimit fun i inner hreach =>
          hsame i inner (.later hrun hreach)).bind _
      · cases hpure

end

end Expanded

/-! ## Mixins without parameters -/

section Parameterless

mutual

theorem mapReferences_none : (v : Value) →
    Value.mapReferences (m := Id) (fun _ => pure none) v = pure v
  | .reference _ => rfl
  | .list items _ => by rw [Value.mapReferences, mapAllReferences_none items]; rfl
  | .call _ args => by rw [Value.mapReferences, mapReferences_none args]; rfl
  | .binary left _ right => by
    rw [Value.mapReferences, mapReferences_none left, mapReferences_none right]
    rfl
  | .joined parts => by rw [Value.mapReferences, mapAllReferences_none parts]; rfl
  | .quantity _ => rfl
  | .literal _ => rfl
  | .boolean _ => rfl
  | .undefined _ => rfl

theorem mapAllReferences_none : (vs : List Value) →
    Value.mapAllReferences (m := Id) (fun _ => pure none) vs = pure vs
  | [] => rfl
  | v :: vs => by
    rw [Value.mapAllReferences, mapReferences_none v, mapAllReferences_none vs]
    rfl

end

theorem Selector.mapValues_id (s : Selector) : s.mapValues id = s := by
  refine congrArg Selector.mk (List.map_id'' (fun alt => List.map_id'' (fun piece => ?_) alt) _)
  cases piece <;> rfl

mutual

theorem Node.mapValues_id : (node : Node) → node.mapValues id = node
  | .block (.style selector depth) body => by
    rw [Node.mapValues, Node.mapAllValues_id body, Head.mapValues, Selector.mapValues_id]
  | .block (.media _) body => by rw [Node.mapValues, Node.mapAllValues_id body]; rfl
  | .block .fontFace body => by rw [Node.mapValues, Node.mapAllValues_id body]; rfl
  | .block (.keyframes _) body => by rw [Node.mapValues, Node.mapAllValues_id body]; rfl
  | .block (.atRule _ _) body => by rw [Node.mapValues, Node.mapAllValues_id body]; rfl
  | .declaration _ => rfl
  | .assignment _ => rfl
  | .inclusion i => by rw [Node.mapValues, Option.map_id_fun]; rfl
  | .branch _ body otherwise => by
    rw [Node.mapValues, Node.mapAllValues_id body, Node.mapAllValues_id otherwise]
    rfl
  | .loop _ _ _ _ body => by rw [Node.mapValues, Node.mapAllValues_id body]; rfl
  | .statement _ _ => rfl
  | .importRule _ => rfl
  | .comment _ => rfl
  | .mixin _ _ _ => rfl

theorem Node.mapAllValues_id : (nodes : List Node) → Node.mapAllValues id nodes = nodes
  | [] => rfl
  | node :: nodes => by
    rw [Node.mapAllValues, Node.mapValues_id node, Node.mapAllValues_id nodes]

end

variable {d : Nat} {env : Environment} {scope : Scope} {i : Inclusion} {m : Mixin}

theorem mixinBody_of_params (hm : Registry.find? env.layers i.name = some m)
    (hparams : m.params = []) : mixinBody env.layers scope i = .ok m.body := by
  have hsubstitute : Value.substitute scope.child.locals.get? = id := by
    funext v
    have hnone : (fun name => pure (scope.child.locals.get? name) : String → Id (Option Value)) =
        fun _ => pure none := by
      funext name
      exact congrArg pure (Table.get?_empty name)
    rw [Value.substitute, hnone, mapReferences_none]
    rfl
  have hbind : m.bind i.args scope = .ok scope.child := by
    rw [Mixin.bind, hparams, bindParameters]
  rw [mixinBody, hm]
  dsimp only
  rw [hbind]
  show Except.ok (m.instantiate scope.child) = .ok m.body
  rw [Mixin.instantiate, hsubstitute, Node.mapAllValues_id]

theorem expandInclude_eq_bind (layers : List Registry) (scope : Scope) (i : Inclusion) :
    expandInclude layers scope i =
      inclusionBody layers scope i >>= spliceNodes (expandIncludeIn layers scope 999) :=
  expandIncludeIn_succ layers scope 999 i

/-- An inclusion of a mixin without parameters expands its body, if it is counted at all. -/
theorem expandInclude_of_params (hm : Registry.find? env.layers i.name = some m)
    (hparams : m.params = []) (scope : Scope) (s : Session) :
    expandInclude env.layers scope i s =
        (.error (.limitExceeded .includes i.name), s.bump .includes) ∨
      expandInclude env.layers scope i s =
        spliceNodes (expandIncludeIn env.layers scope 999) m.body (s.bump .includes) := by
  have hcount : Metered.countInclude i.name s =
      Metered.check .includes (s.includes + 1) i.name (s.bump .includes) := rfl
  rw [expandInclude_eq_bind]
  by_cases hlimit : Limit.includes.max < s.includes + 1
  · rw [Metered.check, if_pos hlimit] at hcount
    exact .inl (work_bind_error (work_bind_error hcount))
  · rw [Metered.check, if_neg hlimit] at hcount
    have hbody : inclusionBody env.layers scope i s = (.ok m.body, s.bump .includes) := by
      rw [inclusionBody, work_bind_ok hcount, mixinBody_of_params hm hparams, ofExcept_eq]
    exact .inr (work_bind_ok hbody)

theorem matches_inclusion (hm : Registry.find? env.layers i.name = some m)
    (hparams : m.params = [])
    (hsame : ∀ j inner, Reaches env Node.IsStyleRule m.body scope j inner →
      expandInclude env.layers inner j = expandInclude env.layers scope j) :
    Matches d (env.evalNodes [.inclusion i] scope) (env.evalNodes m.body scope) := by
  intro s t hs ht
  have hbump : (s.bump .includes).depth = d := hs
  rw [evalNodes_inclusion]
  obtain hlimit | hbody := expandInclude_of_params hm hparams scope s
  · rw [work_bind_error hlimit]
    exact .leftExceeds _ _ _ _
  · rcases hout : spliceNodes (expandIncludeIn env.layers scope 999) m.body (s.bump .includes)
      with ⟨o, u⟩
    rw [hout] at hbody
    cases o with
    | error e =>
      rw [work_bind_error hbody]
      by_cases hexceeds : ∃ limit detail, e = .limitExceeded limit detail
      · obtain ⟨limit, detail, rfl⟩ := hexceeds
        exact .leftExceeds limit detail u _
      · have hlimit : ∀ limit detail, e ≠ .limitExceeded limit detail :=
          fun limit detail he => hexceeds ⟨limit, detail, he⟩
        obtain ⟨e', v, hfails⟩ := fails_of_spliceNodes m.body hbump hout hlimit hsame ht
        rw [hfails]
        exact .fail e e' u v
    | ok out =>
      have hu : u.depth = d :=
        (matches_spliceNodes (matches_expandIncludeIn env.layers scope 999 999) m.body).depth_eq
          hbump hout
      rw [work_bind_ok hbody]
      exact (matches_expanded hbump hout hsame ht hu).symm

/-- Evaluating nodes with inclusions of a mixin without parameters gives the same as evaluating them
with its body in their place, if no limit is exceeded and everything that the body includes,
directly or in nested style rules, expands where it is reached as it does at the inclusion. -/
theorem evalNodes_splice (env : Environment) {name : String} {m : Mixin}
    (hm : Registry.find? env.layers name = some m) (hparams : m.params = [])
    {nodes nodes' : List Node}
    (hsplice : Spliced (fun _ => True) (fun i body => i.name = name ∧ body = m.body) nodes nodes')
    (scope : Scope) (s : Session)
    (hsame : ∀ i outer, i.name = name → Reaches env (fun _ => True) nodes scope i outer →
      ∀ j inner, Reaches env Node.IsStyleRule m.body outer j inner →
        expandInclude env.layers inner j = expandInclude env.layers outer j)
    (hincluded : ∀ limit detail,
      (env.evalNodes nodes scope s).1 ≠ .error (.limitExceeded limit detail))
    (hspliced : ∀ limit detail,
      (env.evalNodes nodes' scope s).1 ≠ .error (.limitExceeded limit detail)) :
    (∃ result, (env.evalNodes nodes scope s).1 = .ok result ∧
      (env.evalNodes nodes' scope s).1 = .ok result) ∨
    ∃ e e', (env.evalNodes nodes scope s).1 = .error e ∧
      (env.evalNodes nodes' scope s).1 = .error e' := by
  have hmatches : Matches s.depth (env.evalNodes nodes scope) (env.evalNodes nodes' scope) := by
    refine hsplice.matches Limit.includes.max fun i body outer hreach hbody => ?_
    obtain ⟨rfl, rfl⟩ := hbody
    exact matches_inclusion hm hparams (hsame i outer rfl hreach)
  have hmatched := hmatches rfl rfl
  rcases hl : env.evalNodes nodes scope s with ⟨l, u⟩
  rcases hr : env.evalNodes nodes' scope s with ⟨r, v⟩
  rw [hl] at hmatched hincluded
  rw [hr] at hmatched hspliced
  cases hmatched with
  | leftExceeds limit detail => exact absurd rfl (hincluded limit detail)
  | rightExceeds limit detail => exact absurd rfl (hspliced limit detail)
  | same result => exact .inl ⟨result, rfl, rfl⟩
  | fail e e' => exact .inr ⟨e, e', rfl, rfl⟩

end Parameterless

/-! ## Two mixins that include a third -/

section Examples

def widthMixin : Mixin :=
  ⟨"width", [⟨"size", none⟩], [.declaration ⟨"width", .reference "size", default⟩]⟩

/-- Assigns the variable that it hands on. -/
def presetMixin : Mixin :=
  ⟨"preset", [], [.assignment ⟨"x", .literal "1px", false⟩,
    .inclusion ⟨"width", some (.reference "x"), default⟩]⟩

/-- Assigns another variable than the one that it hands on, in a nested rule. -/
def framedMixin : Mixin :=
  ⟨"framed", [], [.assignment ⟨"x", .literal "1px", false⟩,
    .block (.style ⟨[[.word "b"]]⟩ 2) [.inclusion ⟨"width", some (.reference "v"), default⟩]]⟩

def mixinEnvironment : Environment :=
  ⟨.empty, [Registry.register (Registry.register (Registry.register .empty widthMixin) presetMixin)
    framedMixin]⟩

def mixinScope : Scope := Scope.set {} "v" (.literal "2px")

/-- A rule with some items and a declaration after them. -/
def ruleWith (items : List Node) : List Node :=
  [.block (.style ⟨[[.word "a"]]⟩ 1)
    (items ++ [.declaration ⟨"border", .reference "x", default⟩])]

set_option maxRecDepth 4000

theorem spliced_ruleWith (m : Mixin) (i : Inclusion) (hi : i.name = m.name) :
    Spliced (fun _ => True) (fun i body => i.name = m.name ∧ body = m.body)
      (ruleWith [.inclusion i]) (ruleWith m.body) :=
  .block trivial (.splice ⟨hi, rfl⟩ (.keep _ .nil)) .nil

theorem scope_of_assignment {env : Environment} {a : Assignment} {scope scope' : Scope}
    {out : List Node} {s t : Session}
    (h : env.evalNodes [.assignment a] scope s = (.ok (out, scope'), t)) :
    scope' = scope.assign a := by
  have hrun : env.evalNodes [.assignment a] scope s = (.ok ([], scope.assign a), s) := rfl
  rw [hrun] at h
  cases h
  rfl

theorem reaches_framed {i j : Inclusion} {outer inner : Scope}
    (hreach : Reaches mixinEnvironment (fun _ => True)
      (ruleWith [.inclusion ⟨"framed", none, default⟩]) mixinScope i outer)
    (hinner : Reaches mixinEnvironment Node.IsStyleRule framedMixin.body outer j inner) :
    outer = mixinScope.child ∧ j = ⟨"width", some (.reference "v"), default⟩ ∧
      inner = (mixinScope.child.set "x" (.literal "1px")).child := by
  have houter : outer = mixinScope.child := by
    cases hreach with
    | later _ h => cases h
    | block _ _ h =>
      cases h with
      | here => rfl
      | later _ h =>
        cases h with
        | later _ h => cases h
  subst houter
  cases hinner with
  | later hnode h =>
    obtain rfl := scope_of_assignment hnode
    cases h with
    | later _ h => cases h
    | block _ _ h =>
      cases h with
      | here => exact ⟨rfl, rfl, rfl⟩
      | later _ h => cases h

theorem expandInclude_width {scope : Scope} (hv : scope.resolve "v" = .ok (.literal "2px")) :
    expandInclude mixinEnvironment.layers scope ⟨"width", some (.reference "v"), default⟩ = (do
      Metered.countInclude "width"
      return [.declaration ⟨"width", .literal "2px", default⟩]) := by
  have hbind : widthMixin.bind (some (.reference "v")) scope =
      .ok (scope.child.set "size" (.literal "2px")) := by
    have hvalue : (Value.reference "v").resolveReferences scope = .ok (.literal "2px") := by
      rw [Value.resolveReferences, Value.mapReferences, hv]
      rfl
    show bindParameters scope [⟨"size", none⟩] [.reference "v"] scope.child = _
    rw [bindParameters, hvalue]
    rfl
  have hbody : mixinBody mixinEnvironment.layers scope ⟨"width", some (.reference "v"), default⟩ =
      .ok [.declaration ⟨"width", .literal "2px", default⟩] := by
    have hfound : Registry.find? mixinEnvironment.layers "width" = some widthMixin := rfl
    rw [mixinBody, hfound]
    dsimp only
    rw [hbind]
    rfl
  rw [expandInclude_eq_bind, inclusionBody, hbody, bind_assoc]
  rfl

theorem evalNodes_splice_framed :
    Registry.find? mixinEnvironment.layers "framed" = some framedMixin ∧ framedMixin.params = [] ∧
      ∃ result,
        (mixinEnvironment.evalNodes (ruleWith [.inclusion ⟨"framed", none, default⟩])
          mixinScope {}).1 = .ok result ∧
        (mixinEnvironment.evalNodes (ruleWith framedMixin.body) mixinScope {}).1 = .ok result := by
  have hincluded : ∃ r, (mixinEnvironment.evalNodes
      (ruleWith [.inclusion ⟨"framed", none, default⟩]) mixinScope {}).1 = .ok r := ⟨_, rfl⟩
  have hspliced : ∃ r, (mixinEnvironment.evalNodes (ruleWith framedMixin.body)
      mixinScope {}).1 = .ok r := ⟨_, rfl⟩
  obtain ⟨r, hr⟩ := hincluded
  obtain ⟨r', hr'⟩ := hspliced
  have hfound : Registry.find? mixinEnvironment.layers "framed" = some framedMixin := rfl
  refine ⟨hfound, rfl, ?_⟩
  have hsplice := spliced_ruleWith framedMixin ⟨"framed", none, default⟩ rfl
  have hresult := evalNodes_splice mixinEnvironment hfound rfl hsplice mixinScope {}
    (fun i outer _ hreach j inner hinner => ?_) (by simp [hr]) (by simp [hr'])
  · obtain hok | ⟨e, e', he, -⟩ := hresult
    · exact hok
    · rw [hr] at he
      cases he
  · obtain ⟨rfl, rfl, rfl⟩ := reaches_framed hreach hinner
    rw [expandInclude_width rfl, expandInclude_width rfl]

/-- What a mixin includes does not see the assignment before it, unless its body stands in place of
the inclusion. -/
theorem preset_hands_on_outer_variable :
    Registry.find? mixinEnvironment.layers "preset" = some presetMixin ∧ presetMixin.params = [] ∧
      Spliced (fun _ => True) (fun i body => i.name = "preset" ∧ body = presetMixin.body)
        (ruleWith [.inclusion ⟨"preset", none, default⟩]) (ruleWith presetMixin.body) ∧
      (mixinEnvironment.evalNodes (ruleWith [.inclusion ⟨"preset", none, default⟩]) {} {}).1 =
        .ok ([.block (.style ⟨[[.word "a"]]⟩ 1)
          [.declaration ⟨"width", .undefined "x", default⟩,
            .declaration ⟨"border", .literal "1px", default⟩]], {}) ∧
      (mixinEnvironment.evalNodes (ruleWith presetMixin.body) {} {}).1 =
        .ok ([.block (.style ⟨[[.word "a"]]⟩ 1)
          [.declaration ⟨"width", .literal "1px", default⟩,
            .declaration ⟨"border", .literal "1px", default⟩]], {}) :=
  ⟨rfl, rfl, spliced_ruleWith presetMixin _ rfl, rfl, rfl⟩

end Examples

end Stylesheet
