import Stylesheet.Proofs.Evaluation.Reduced
import Stylesheet.Proofs.Scribe.Bodies

/-!
# Evaluated rules

What is left of a rule after evaluation are declarations and rules with reduced values. Nothing in
them asks for the scope or for a mixin, and evaluating them counts no more than was counted before,
so evaluating such a rule once more gives it back.

* `Node.IsEvaluated`: only declarations and rules, with values of some kind.
* `Leaves`: what evaluation leaves, and what it has counted.
* `leaves_evalNodesIn`: evaluation leaves evaluated nodes.
* `gives_evalNodesIn_of_allEvaluated`: evaluated nodes are given back.
* `evalRule_reaches_fixpoint`: both for one rule.
-/

namespace Stylesheet

/-! ## Nodes with nothing to evaluate -/

/-- All values interpolated in the selector of a head have a property. -/
def Head.IsEvaluated (p : Value → Prop) : Head → Prop
  | .style selector _ => ∀ alt ∈ selector.alternatives, ∀ v, .value v ∈ alt → p v
  | .media _ => True
  | .fontFace => True
  | .keyframes _ => True
  | .atRule _ _ => True

namespace Node

mutual

/-- Nothing but declarations and rules, at any depth, all of whose values have a property. -/
def IsEvaluated (p : Value → Prop) : Node → Prop
  | .declaration d => p d.value
  | .block head body => head.IsEvaluated p ∧ AllEvaluated p body
  | .statement _ _ => True
  | .importRule _ => True
  | .assignment _ => False
  | .comment _ => False
  | .mixin _ _ _ => False
  | .inclusion _ => False
  | .branch _ _ _ => False
  | .loop _ _ _ _ _ => False

def AllEvaluated (p : Value → Prop) : List Node → Prop
  | [] => True
  | n :: ns => IsEvaluated p n ∧ AllEvaluated p ns

end

mutual

/-- How many declarations stand here or in nested blocks. -/
def declarations : Node → Nat
  | .declaration _ => 1
  | .block _ body => allDeclarations body
  | _ => 0

def allDeclarations : List Node → Nat
  | [] => 0
  | n :: ns => declarations n + allDeclarations ns

end

/-- Blocks, statements and imports. -/
def IsRule : Node → Prop
  | .block _ _ => True
  | .statement _ _ => True
  | .importRule _ => True
  | _ => False

theorem allEvaluated_append {p : Value → Prop} {ns ms : List Node} (hns : AllEvaluated p ns)
    (hms : AllEvaluated p ms) : AllEvaluated p (ns ++ ms) := by
  induction ns with
  | nil => exact hms
  | cons n ns ih => exact ⟨hns.1, ih hns.2⟩

theorem allDeclarations_append (ns ms : List Node) :
    allDeclarations (ns ++ ms) = allDeclarations ns + allDeclarations ms := by
  induction ns with
  | nil => rw [List.nil_append, allDeclarations, Nat.zero_add]
  | cons n ns ih => rw [List.cons_append, allDeclarations, ih, allDeclarations, Nat.add_assoc]

section Mono

variable {p q : Value → Prop}

theorem Head.isEvaluated_mono (hpq : ∀ v, p v → q v) {head : Head} (h : head.IsEvaluated p) :
    head.IsEvaluated q := by
  cases head with
  | style selector depth => exact fun alt halt v hv => hpq v (h alt halt v hv)
  | media _ => trivial
  | fontFace => trivial
  | keyframes _ => trivial
  | atRule _ _ => trivial

mutual

theorem isEvaluated_mono (hpq : ∀ v, p v → q v) : (n : Node) → n.IsEvaluated p → n.IsEvaluated q
  | .declaration d, h => hpq d.value h
  | .block _ body, h => ⟨Head.isEvaluated_mono hpq h.1, allEvaluated_mono hpq body h.2⟩
  | .statement _ _, _ => trivial
  | .importRule _, _ => trivial
  | .assignment _, h => h.elim
  | .comment _, h => h.elim
  | .mixin _ _ _, h => h.elim
  | .inclusion _, h => h.elim
  | .branch _ _ _, h => h.elim
  | .loop _ _ _ _ _, h => h.elim

theorem allEvaluated_mono (hpq : ∀ v, p v → q v) : (ns : List Node) → AllEvaluated p ns →
    AllEvaluated q ns
  | [], _ => trivial
  | n :: ns, h => ⟨isEvaluated_mono hpq n h.1, allEvaluated_mono hpq ns h.2⟩

end

end Mono

end Node

/-! ## What evaluation leaves -/

/-- Evaluation from the session `s` to `t` leaves some nodes, whose values have a property and whose
declarations it has counted. -/
structure Leaves (p : Value → Prop) (s : Session) (nodes : List Node) (t : Session) : Prop where
  evaluated : Node.AllEvaluated p nodes
  counted : t.nodes = s.nodes + Node.allDeclarations nodes
  /-- The last declaration was counted within the limit. -/
  within : 0 < Node.allDeclarations nodes →
    s.nodes + Node.allDeclarations nodes ≤ Limit.nodes.max

namespace Leaves

variable {p : Value → Prop} {s t u : Session} {ns ms : List Node}

theorem nothing (h : t.nodes = s.nodes) : Leaves p s [] t :=
  ⟨trivial, h, fun h => (Nat.lt_irrefl 0 h).elim⟩

theorem append (hns : Leaves p s ns t) (hms : Leaves p t ms u) : Leaves p s (ns ++ ms) u := by
  have hcounted := hns.counted
  have hcounted' := hms.counted
  refine ⟨Node.allEvaluated_append hns.evaluated hms.evaluated, ?_, fun hpos => ?_⟩
  · rw [Node.allDeclarations_append]
    omega
  · rw [Node.allDeclarations_append] at hpos ⊢
    -- Where the second part declares nothing, the limit comes from the first one.
    by_cases hlast : 0 < Node.allDeclarations ms
    · have := hms.within hlast
      omega
    · have := hns.within (by omega)
      omega

theorem block {head : Head} (hhead : head.IsEvaluated p) (hns : Leaves p s ns t) :
    Leaves p s [.block head ns] t :=
  ⟨⟨⟨hhead, hns.evaluated⟩, trivial⟩, hns.counted, hns.within⟩

theorem after (h : Leaves p t ns u) (hst : t.nodes = s.nodes) : Leaves p s ns u :=
  (nothing hst).append h

end Leaves

section Values

variable {env : Environment} {scope : Scope} {s s' : Session}

/-- Resolution with some functions gives values with a property. -/
def Resolves (functions : FunctionTable) (p : Value → Prop) : Prop :=
  ∀ {scope : Scope} {v r : Value} {s s' : Session}, Gives (resolve functions scope v) s r s' → p r

theorem resolves_fits {functions : FunctionTable} (hfunctions : functions.GivesAtoms) :
    Resolves functions (Value.Fits functions 0) := fun h =>
  (resolveIn_fits hfunctions (evaluationDepth_le_levels _) h).of_le (Nat.zero_le _)

theorem resolve_session {functions : FunctionTable} {v r : Value}
    (h : Gives (resolve functions scope v) s r s') : s' = s :=
  resolveIn_session (evaluationDepth_le_levels s.depth) h

theorem Gives.of_mapValuesM {f : Value → Metered Value} {p : Value → Prop}
    {selector selector' : Selector} (hf : ∀ v r t, Gives (f v) s r t → t = s ∧ p r)
    (h : Gives (selector.mapValuesM f) s selector' s') :
    s' = s ∧ ∀ alt ∈ selector'.alternatives, ∀ v, .value v ∈ alt → p v := by
  obtain ⟨alts, t, halts, h⟩ := h.of_bind
  obtain ⟨rfl, rfl⟩ := h.of_pure
  refine Gives.of_mapM (fun alt out t hout => ?_) halts
  have hpieces := Gives.of_mapM (P := fun piece => ∀ v, piece = .value v → p v)
    (fun piece out t hout => ?_) hout
  · exact ⟨hpieces.1, fun v hv => hpieces.2 _ hv v rfl⟩
  · cases piece with
    | value v =>
      obtain ⟨r, t, hr, h⟩ := hout.of_bind
      obtain ⟨rfl, rfl⟩ := h.of_pure
      obtain ⟨ht, hp⟩ := hf v r t hr
      exact ⟨ht, fun w hw => by cases hw; exact hp⟩
    | word _ =>
      obtain ⟨rfl, rfl⟩ := hout.of_pure
      exact ⟨rfl, fun v hv => by cases hv⟩
    | space =>
      obtain ⟨rfl, rfl⟩ := hout.of_pure
      exact ⟨rfl, fun v hv => by cases hv⟩
    | parent =>
      obtain ⟨rfl, rfl⟩ := hout.of_pure
      exact ⟨rfl, fun v hv => by cases hv⟩

theorem resolveHead_isEvaluated {p : Value → Prop} (hp : Resolves env.functions p)
    {head head' : Head} (h : Gives (env.resolveHead scope head) s head' s') :
    s' = s ∧ head'.IsEvaluated p := by
  cases head with
  | style selector depth =>
    obtain ⟨resolved, t, hresolved, h⟩ := h.of_bind
    obtain ⟨rfl, rfl⟩ := h.of_pure
    exact hresolved.of_mapValuesM fun _ _ _ hr => ⟨resolve_session hr, hp hr⟩
  | media _ =>
    obtain ⟨rfl, rfl⟩ := h.of_pure
    exact ⟨rfl, trivial⟩
  | fontFace =>
    obtain ⟨rfl, rfl⟩ := h.of_pure
    exact ⟨rfl, trivial⟩
  | keyframes _ =>
    obtain ⟨rfl, rfl⟩ := h.of_pure
    exact ⟨rfl, trivial⟩
  | atRule _ _ =>
    obtain ⟨rfl, rfl⟩ := h.of_pure
    exact ⟨rfl, trivial⟩

end Values

section Items

variable {env : Environment} {enter : Environment.Run} {p : Value → Prop} {s t : Session}

theorem Counts.of_gives {count : Metered Unit} {c : Counter} (hcount : Counts count c)
    (h : Gives count s () t) : s.used c < c.limit.max ∧ t = s.bump c := by
  by_cases hlimit : s.used c < c.limit.max
  · have heq : ((.ok (), s.bump c) : Except CompileError Unit × Session) = (.ok (), t) :=
      (hcount.ok s hlimit).symm.trans h
    exact ⟨hlimit, (congrArg Prod.snd heq).symm⟩
  · obtain ⟨e, herror⟩ := hcount.error
    have heq : ((.error e, s.bump c) : Except CompileError Unit × Session) = (.ok (), t) :=
      (herror s (Nat.le_of_not_lt hlimit)).symm.trans h
    cases heq

section Splice

variable {expand : Inclusion → Metered (List Node)}

mutual

theorem spliceNode_nodes
    (hexpand : ∀ {i s body t}, Gives (expand i) s body t → t.nodes = s.nodes) :
    (node : Node) → {s t : Session} → {out : List Node} → Gives (spliceNode expand node) s out t →
    t.nodes = s.nodes
  | .inclusion _, _, _, _, h => hexpand h
  | .block (.style _ _) body, _, _, _, h => by
    rw [spliceNode] at h
    obtain ⟨_, u, hbody, h⟩ := h.of_bind
    obtain ⟨-, rfl⟩ := h.of_pure
    exact spliceNodes_nodes hexpand body hbody
  | .block (.media _) _, _, _, _, h => congrArg Session.nodes h.of_pure.2
  | .block .fontFace _, _, _, _, h => congrArg Session.nodes h.of_pure.2
  | .block (.keyframes _) _, _, _, _, h => congrArg Session.nodes h.of_pure.2
  | .block (.atRule _ _) _, _, _, _, h => congrArg Session.nodes h.of_pure.2
  | .statement _ _, _, _, _, h => congrArg Session.nodes h.of_pure.2
  | .importRule _, _, _, _, h => congrArg Session.nodes h.of_pure.2
  | .declaration _, _, _, _, h => congrArg Session.nodes h.of_pure.2
  | .assignment _, _, _, _, h => congrArg Session.nodes h.of_pure.2
  | .comment _, _, _, _, h => congrArg Session.nodes h.of_pure.2
  | .mixin _ _ _, _, _, _, h => congrArg Session.nodes h.of_pure.2
  | .branch _ _ _, _, _, _, h => congrArg Session.nodes h.of_pure.2
  | .loop _ _ _ _ _, _, _, _, h => congrArg Session.nodes h.of_pure.2

theorem spliceNodes_nodes
    (hexpand : ∀ {i s body t}, Gives (expand i) s body t → t.nodes = s.nodes) :
    (nodes : List Node) → {s t : Session} → {out : List Node} →
    Gives (spliceNodes expand nodes) s out t → t.nodes = s.nodes
  | [], _, _, _, h => congrArg Session.nodes h.of_pure.2
  | node :: nodes, _, _, _, h => by
    rw [spliceNodes] at h
    obtain ⟨_, u, hnode, h⟩ := h.of_bind
    obtain ⟨_, v, hnodes, h⟩ := h.of_bind
    obtain ⟨-, rfl⟩ := h.of_pure
    exact (spliceNodes_nodes hexpand nodes hnodes).trans (spliceNode_nodes hexpand node hnode)

end

end Splice

/-- Expanding an inclusion counts inclusions only. -/
theorem expandIncludeIn_nodes {layers : List Registry} {scope : Scope} (k : Nat) {i : Inclusion}
    {body : List Node} (h : Gives (expandIncludeIn layers scope k i) s body t) :
    t.nodes = s.nodes := by
  induction k generalizing i s body t with
  | zero =>
    obtain ⟨_, u, -, h⟩ := h.of_bind
    cases h
  | succ k ih =>
    rw [expandIncludeIn_succ] at h
    obtain ⟨copy, u, hcopy, h⟩ := h.of_bind
    obtain ⟨-, rfl⟩ := inclusionBody_ok hcopy
    show t.nodes = (s.bump .includes).nodes
    exact spliceNodes_nodes ih copy h

theorem leaves_runLoop {run : Scope → Metered (List Node × Scope)}
    (hrun : ∀ {scope s r t}, Gives (run scope) s r t → Leaves p s r.1 t) {counter : String}
    {scope : Scope} {range : List Int} {out : List Node}
    (h : Gives (Environment.runLoop run counter scope range) s out t) : Leaves p s out t := by
  obtain ⟨⟨parts, inner⟩, u, hparts, h⟩ := h.of_bind
  obtain ⟨rfl, rfl⟩ := h.of_pure
  -- The loop collects what its rounds leave with the last one in front.
  refine Gives.of_foldlM (P := fun acc u => Leaves p s acc.1.reverse.flatten u) ?_
    (.nothing rfl) hparts
  rintro ⟨parts, inner⟩ i u acc v hparts hstep
  obtain ⟨⟨nodes, inner⟩, w, hnodes, hstep⟩ := hstep.of_bind
  obtain ⟨rfl, rfl⟩ := hstep.of_pure
  have hflatten : (nodes :: parts).reverse.flatten = parts.reverse.flatten ++ nodes := by simp
  rw [hflatten]
  exact hparts.append (hrun hnodes)

mutual

theorem leaves_evalNodeBy (hp : Resolves env.functions p)
    (henter : ∀ {body scope s r t}, Gives (enter body scope) s r t → Leaves p s r.1 t) :
    (node : Node) → (scope : Scope) → {s t : Session} → {r : List Node × Scope} →
    Gives (env.evalNodeBy enter node scope) s r t → Leaves p s r.1 t
  | .declaration d, scope, s, t, r, h => by
    rw [Environment.evalNodeBy] at h
    obtain ⟨_, u, hcount, h⟩ := h.of_bind
    obtain ⟨value, v, hvalue, h⟩ := h.of_bind
    obtain ⟨rfl, rfl⟩ := h.of_pure
    obtain ⟨hlimit, rfl⟩ := counts_countNode.of_gives hcount
    obtain rfl := resolve_session hvalue
    exact ⟨⟨hp hvalue, trivial⟩, rfl, fun _ => hlimit⟩
  | .assignment a, scope, s, t, r, h => by
    rw [Environment.evalNodeBy] at h
    obtain ⟨rfl, rfl⟩ := h.of_pure
    exact .nothing rfl
  | .branch condition body otherwise, scope, s, t, r, h => by
    rw [Environment.evalNodeBy] at h
    obtain ⟨chosen, u, hchosen, hbody⟩ := h.of_bind
    obtain rfl := (reduces_chooseBranch env condition s.depth).session_eq hchosen
    cases chosen with
    | true => exact leaves_evalNodesBy hp henter body scope hbody
    | false => exact leaves_evalNodesBy hp henter otherwise scope hbody
  | .loop counter first last inclusive body, scope, s, t, r, h => by
    rw [Environment.evalNodeBy] at h
    obtain ⟨range, u, hrange, hbody⟩ := h.of_bind
    obtain rfl := (reduces_loopRange env first last inclusive s.depth).session_eq hrange
    obtain ⟨nodes, v, hnodes, hpure⟩ := hbody.of_bind
    obtain ⟨rfl, rfl⟩ := hpure.of_pure
    exact leaves_runLoop (fun hrun => leaves_evalNodesBy hp henter body _ hrun) hnodes
  | .inclusion i, scope, s, t, r, h => by
    rw [Environment.evalNodeBy] at h
    obtain ⟨body, u, hbody, h⟩ := h.of_bind
    exact (henter h).after (expandIncludeIn_nodes Limit.includes.max hbody)
  | .block head body, scope, s, t, r, h => by
    rw [Environment.evalNodeBy] at h
    obtain ⟨head', u, hhead, hbody⟩ := h.of_bind
    obtain ⟨rfl, hevaluated⟩ := resolveHead_isEvaluated hp hhead
    obtain ⟨⟨nodes, inner⟩, v, hnodes, hpure⟩ := hbody.of_bind
    obtain ⟨rfl, rfl⟩ := hpure.of_pure
    exact .block hevaluated (leaves_evalNodesBy hp henter body scope.child hnodes)
  | .statement _ _, scope, s, t, r, h => by
    rw [Environment.evalNodeBy] at h
    obtain ⟨rfl, rfl⟩ := h.of_pure
    exact ⟨⟨trivial, trivial⟩, rfl, fun h => (Nat.lt_irrefl 0 h).elim⟩
  | .importRule _, scope, s, t, r, h => by
    rw [Environment.evalNodeBy] at h
    obtain ⟨rfl, rfl⟩ := h.of_pure
    exact ⟨⟨trivial, trivial⟩, rfl, fun h => (Nat.lt_irrefl 0 h).elim⟩
  | .comment _, scope, s, t, r, h => by
    rw [Environment.evalNodeBy] at h
    obtain ⟨rfl, rfl⟩ := h.of_pure
    exact .nothing rfl
  | .mixin _ _ _, scope, s, t, r, h => by
    rw [Environment.evalNodeBy] at h
    obtain ⟨rfl, rfl⟩ := h.of_pure
    exact .nothing rfl

theorem leaves_evalNodesBy (hp : Resolves env.functions p)
    (henter : ∀ {body scope s r t}, Gives (enter body scope) s r t → Leaves p s r.1 t) :
    (nodes : List Node) → (scope : Scope) → {s t : Session} → {r : List Node × Scope} →
    Gives (env.evalNodesBy enter nodes scope) s r t → Leaves p s r.1 t
  | [], scope, s, t, r, h => by
    rw [Environment.evalNodesBy] at h
    obtain ⟨rfl, rfl⟩ := h.of_pure
    exact .nothing rfl
  | node :: nodes, scope, s, t, r, h => by
    rw [Environment.evalNodesBy] at h
    obtain ⟨⟨first, scope'⟩, u, hfirst, h⟩ := h.of_bind
    obtain ⟨⟨rest, scope''⟩, v, hrest, h⟩ := h.of_bind
    obtain ⟨rfl, rfl⟩ := h.of_pure
    exact (leaves_evalNodeBy hp henter node scope hfirst).append
      (leaves_evalNodesBy hp henter nodes scope' hrest)

end

theorem leaves_evalNodesIn (hp : Resolves env.functions p) (k : Nat) {nodes : List Node}
    {scope : Scope} {r : List Node × Scope} (h : Gives (env.evalNodesIn k nodes scope) s r t) :
    Leaves p s r.1 t := by
  induction k generalizing nodes scope s r t with
  | zero => exact leaves_evalNodesBy hp (fun h => by cases h) nodes scope h
  | succ k ih => exact leaves_evalNodesBy hp ih nodes scope h

end Items

/-! ## Evaluating once more -/

section Again

open Nesting (gives_evalNodesBy_cons)

variable {env : Environment} {enter : Environment.Run} {scope : Scope} {s : Session}

theorem gives_resolve_of_fits {v : Value} (h : v.Fits env.functions 0) (hdepth : s.depth = 0) :
    Gives (resolve env.functions scope v) s v s := by
  have hheight := h.height_le
  exact isSettled_of_isReduced v h.isReduced levels s (by unfold levels; omega) (by omega)

theorem gives_resolveHead_of_isEvaluated {head : Head}
    (h : head.IsEvaluated (Value.Fits env.functions 0)) (hdepth : s.depth = 0) :
    Gives (env.resolveHead scope head) s head s := by
  cases head with
  | style selector depth =>
    have hselector : Gives (selector.mapValuesM (resolve env.functions scope)) s selector s := by
      refine Gives.bind (gives_mapM fun alt halt => gives_mapM fun piece hpiece => ?_)
        (gives_pure _ s)
      cases piece with
      | value v =>
        exact (gives_resolve_of_fits (h alt halt v hpiece) hdepth).bind (gives_pure _ s)
      | word _ => exact gives_pure _ s
      | space => exact gives_pure _ s
      | parent => exact gives_pure _ s
    exact hselector.bind (gives_pure _ s)
  | media _ => exact gives_pure _ s
  | fontFace => exact gives_pure _ s
  | keyframes _ => exact gives_pure _ s
  | atRule _ _ => exact gives_pure _ s

mutual

theorem gives_evalNodeBy_of_isEvaluated : (node : Node) →
    node.IsEvaluated (Value.Fits env.functions 0) → (scope : Scope) → (s : Session) → s.depth = 0 →
    s.nodes + node.declarations ≤ Limit.nodes.max →
    Gives (env.evalNodeBy enter node scope) s ([node], scope)
      { s with nodes := s.nodes + node.declarations }
  | .declaration d, h, scope, s, hdepth, hlimit => by
    have hvalue : Gives (resolve env.functions scope d.value) { s with nodes := s.nodes + 1 }
        d.value { s with nodes := s.nodes + 1 } := gives_resolve_of_fits h hdepth
    rw [Environment.evalNodeBy]
    exact (Metered.gives_countNode hlimit).bind (hvalue.bind (gives_pure _ _))
  | .block head body, h, scope, s, hdepth, hlimit => by
    rw [Environment.evalNodeBy]
    exact (gives_resolveHead_of_isEvaluated h.1 hdepth).bind
      ((gives_evalNodesBy_of_allEvaluated body h.2 scope.child s hdepth hlimit).bind
        (gives_pure _ _))
  | .statement _ _, _, scope, s, _, _ => by
    rw [Environment.evalNodeBy]
    exact gives_pure _ s
  | .importRule _, _, scope, s, _, _ => by
    rw [Environment.evalNodeBy]
    exact gives_pure _ s
  | .assignment _, h, _, _, _, _ => h.elim
  | .comment _, h, _, _, _, _ => h.elim
  | .mixin _ _ _, h, _, _, _, _ => h.elim
  | .inclusion _, h, _, _, _, _ => h.elim
  | .branch _ _ _, h, _, _, _, _ => h.elim
  | .loop _ _ _ _ _, h, _, _, _, _ => h.elim

theorem gives_evalNodesBy_of_allEvaluated : (nodes : List Node) →
    Node.AllEvaluated (Value.Fits env.functions 0) nodes → (scope : Scope) → (s : Session) →
    s.depth = 0 → s.nodes + Node.allDeclarations nodes ≤ Limit.nodes.max →
    Gives (env.evalNodesBy enter nodes scope) s (nodes, scope)
      { s with nodes := s.nodes + Node.allDeclarations nodes }
  | [], _, scope, s, _, _ => by
    rw [Environment.evalNodesBy]
    exact gives_pure _ s
  | node :: nodes, h, scope, s, hdepth, hlimit => by
    rw [Node.allDeclarations, ← Nat.add_assoc] at hlimit ⊢
    have hnode := gives_evalNodeBy_of_isEvaluated node h.1 scope s hdepth (by omega)
    exact gives_evalNodesBy_cons hnode
      (gives_evalNodesBy_of_allEvaluated nodes h.2 scope _ hdepth hlimit)

end

theorem evalNodesIn_eq_evalNodesBy (env : Environment) (k : Nat) :
    ∃ enter, env.evalNodesIn k = env.evalNodesBy enter := by
  cases k with
  | zero => exact ⟨_, rfl⟩
  | succ k => exact ⟨_, rfl⟩

theorem gives_evalNodesIn_of_allEvaluated (env : Environment) (k : Nat) {nodes : List Node}
    (h : Node.AllEvaluated (Value.Fits env.functions 0) nodes) (scope : Scope) (hdepth : s.depth = 0)
    (hlimit : s.nodes + Node.allDeclarations nodes ≤ Limit.nodes.max) :
    Gives (env.evalNodesIn k nodes scope) s (nodes, scope)
      { s with nodes := s.nodes + Node.allDeclarations nodes } := by
  obtain ⟨enter, henter⟩ := evalNodesIn_eq_evalNodesBy env k
  rw [henter]
  exact gives_evalNodesBy_of_allEvaluated nodes h scope s hdepth hlimit

end Again

/-! ## Rules -/

section Rules

variable {env : Environment} {enter : Environment.Run} {scope : Scope} {s t : Session} {rule : Node}

theorem evalNodeBy_isRule (hrule : rule.IsRule) {r : List Node × Scope}
    (h : Gives (env.evalNodeBy enter rule scope) s r t) : ∃ node, r.1 = [node] ∧ node.IsRule := by
  cases rule with
  | block head body =>
    rw [Environment.evalNodeBy] at h
    obtain ⟨head', u, -, h⟩ := h.of_bind
    obtain ⟨⟨nodes, inner⟩, v, -, h⟩ := h.of_bind
    obtain ⟨rfl, -⟩ := h.of_pure
    exact ⟨_, rfl, trivial⟩
  | statement name prelude =>
    rw [Environment.evalNodeBy] at h
    obtain ⟨rfl, -⟩ := h.of_pure
    exact ⟨_, rfl, trivial⟩
  | importRule url =>
    rw [Environment.evalNodeBy] at h
    obtain ⟨rfl, -⟩ := h.of_pure
    exact ⟨_, rfl, trivial⟩
  | declaration _ => exact hrule.elim
  | assignment _ => exact hrule.elim
  | comment _ => exact hrule.elim
  | mixin _ _ _ => exact hrule.elim
  | inclusion _ => exact hrule.elim
  | branch _ _ _ => exact hrule.elim
  | loop _ _ _ _ _ => exact hrule.elim

theorem evalNodesIn_isRule (k : Nat) (hrule : rule.IsRule) {r : List Node × Scope}
    (h : Gives (env.evalNodesIn k [rule] scope) s r t) : ∃ node, r.1 = [node] ∧ node.IsRule := by
  obtain ⟨enter, henter⟩ := evalNodesIn_eq_evalNodesBy env k
  rw [henter, Environment.evalNodesBy] at h
  obtain ⟨⟨nodes, scope'⟩, u, hnodes, h⟩ := h.of_bind
  obtain ⟨⟨rest, scope''⟩, v, hrest, h⟩ := h.of_bind
  rw [Environment.evalNodesBy] at hrest
  obtain ⟨hrest, -⟩ := hrest.of_pure
  obtain ⟨rfl, -⟩ := h.of_pure
  obtain ⟨rfl, -⟩ := Prod.mk.inj hrest
  rw [List.append_nil]
  show ∃ node, nodes = [node] ∧ node.IsRule
  exact evalNodeBy_isRule hrule hnodes

/-- With functions that give values without parts, such as the built-in ones, evaluating a rule leaves
one rule with declarations and rules only, all of whose values are reduced; evaluating that one in any
scope, with any mixins, gives it back. -/
theorem evalRule_reaches_fixpoint (env : Environment) (hfunctions : env.functions.GivesAtoms)
    {rule : Node} (hrule : rule.IsRule) {scope : Scope} {s t : Session} {out : List Node}
    (h : env.evalRule rule scope s = (.ok out, t)) :
    ∃ r, out = [r] ∧ r.IsRule ∧ r.IsEvaluated (Value.IsReduced env.functions) ∧
      ∀ layers scope, (Environment.evalRule ⟨env.functions, layers⟩ r scope {}).1 = .ok [r] := by
  have hgives : Gives (env.evalRule rule scope) s out t := h
  obtain ⟨result, u, hresult, hpure⟩ := hgives.of_bind
  obtain ⟨rfl, rfl⟩ := hpure.of_pure
  obtain ⟨r, hr, hisRule⟩ := evalNodesIn_isRule _ hrule hresult
  have hleaves := leaves_evalNodesIn (resolves_fits hfunctions) _ hresult
  rw [hr] at hleaves ⊢
  refine ⟨r, rfl, hisRule, Node.isEvaluated_mono (fun _ hv => hv.isReduced) r hleaves.evaluated.1, ?_⟩
  intro layers scope
  have hcount : Node.allDeclarations [r] ≤ Limit.nodes.max := by
    have := hleaves.within
    omega
  have hagain : Gives (Environment.evalNodes ⟨env.functions, layers⟩ [r] scope) {} ([r], scope)
      { nodes := 0 + Node.allDeclarations [r] } :=
    gives_evalNodesIn_of_allEvaluated ⟨env.functions, layers⟩ _ hleaves.evaluated scope rfl
      (by simpa using hcount)
  exact congrArg Prod.fst (hagain.bind (gives_pure [r] _))

/-! ## A rule with a variable -/

theorem resolve_set_self (scope : Scope) (name text : String) :
    (scope.set name (.literal text)).resolve name = .ok (.literal text) := by
  have hfound : ∀ steps, Scope.resolveIn (steps + 1)
      (scope.locals.insert name (.literal text) :: scope.outer) name = .ok (.literal text) := by
    intro steps
    rw [Scope.resolveIn, Table.get?_insert_self]
  exact hfound _

theorem gives_resolveIn_reference {functions : FunctionTable} {name text : String} (n : Nat)
    (h : scope.resolve name = .ok (.literal text)) (hdepth : s.depth = 0) :
    Gives (resolveIn functions scope (n + 2) (.reference name)) s (.literal text) s := by
  refine Metered.gives_nested (by rw [hdepth]; decide) ?_
  have hvalue : Gives (resolveIn functions scope (n + 1) (.literal text))
      { s with depth := s.depth + 1 } (.literal text) { s with depth := s.depth + 1 } :=
    isSettled_atom (.literal text) (n + 1) _ (Nat.le_add_left 1 n) (by simp [hdepth, Limit.max])
  have hfound : Gives (Metered.ofExcept (scope.resolve name)) { s with depth := s.depth + 1 }
      (.literal text) { s with depth := s.depth + 1 } := by
    rw [h]
    exact gives_pure _ _
  exact hfound.bind hvalue

theorem gives_evalNodesBy_append {node : Node} {nodes ns ms : List Node} {scope' scope'' : Scope}
    {u : Session} (hnode : Gives (env.evalNodeBy enter node scope) s (ns, scope') t)
    (hnodes : Gives (env.evalNodesBy enter nodes scope') t (ms, scope'') u) :
    Gives (env.evalNodesBy enter (node :: nodes) scope) s (ns ++ ms, scope'') u := by
  rw [Environment.evalNodesBy]
  exact hnode.bind (hnodes.bind (gives_pure _ u))

/-- A rule that binds a variable and declares what it stands for. -/
def variableRule : Node :=
  .block (.style ⟨[[.word "a"]]⟩ 1)
    [.assignment ⟨"w", .literal "red", false⟩, .declaration ⟨"color", .reference "w", default⟩]

/-- What is left of it. -/
def literalRule : Node :=
  .block (.style ⟨[[.word "a"]]⟩ 1) [.declaration ⟨"color", .literal "red", default⟩]

theorem gives_variableRule :
    Gives (Environment.evalRule ⟨.builtins, []⟩ variableRule {}) {} [literalRule] { nodes := 1 } := by
  obtain ⟨enter, henter⟩ := evalNodesIn_eq_evalNodesBy ⟨.builtins, []⟩ Limit.includes.max
  have hnil (scope : Scope) (s : Session) :
      Gives (Environment.evalNodesBy ⟨.builtins, []⟩ enter [] scope) s ([], scope) s := by
    rw [Environment.evalNodesBy]
    exact gives_pure _ s
  let inner : Scope := (Scope.child {}).set "w" (.literal "red")
  have hassignment : Gives (Environment.evalNodeBy ⟨.builtins, []⟩ enter
      (.assignment ⟨"w", .literal "red", false⟩) (Scope.child {})) {} ([], inner) {} := by
    rw [Environment.evalNodeBy]
    exact gives_pure _ _
  have hvalue : Gives (resolve .builtins inner (.reference "w")) { nodes := 1 } (.literal "red")
      { nodes := 1 } := gives_resolveIn_reference 255 (resolve_set_self _ "w" "red") rfl
  have hdeclaration : Gives (Environment.evalNodeBy ⟨.builtins, []⟩ enter
      (.declaration ⟨"color", .reference "w", default⟩) inner) {}
      ([.declaration ⟨"color", .literal "red", default⟩], inner) { nodes := 1 } := by
    rw [Environment.evalNodeBy]
    exact (Metered.gives_countNode (by decide)).bind (hvalue.bind (gives_pure _ _))
  have hbody := gives_evalNodesBy_append hassignment
    (gives_evalNodesBy_append hdeclaration (hnil inner _))
  have hrule : Gives (Environment.evalNodeBy ⟨.builtins, []⟩ enter variableRule {}) {}
      ([literalRule], {}) { nodes := 1 } := by
    have hhead : Gives (Environment.resolveHead ⟨.builtins, []⟩ {} (.style ⟨[[.word "a"]]⟩ 1)) {}
        (.style ⟨[[.word "a"]]⟩ 1) {} := rfl
    rw [variableRule, Environment.evalNodeBy]
    exact hhead.bind (hbody.bind (gives_pure _ _))
  rw [Environment.evalRule, Environment.evalNodes, henter]
  exact (gives_evalNodesBy_append hrule (hnil {} _)).bind (gives_pure _ _)

theorem variableRule_reaches_fixpoint :
    FunctionTable.GivesAtoms .empty ∧ FunctionTable.GivesAtoms .builtins ∧ variableRule.IsRule ∧
      Environment.evalRule ⟨.builtins, []⟩ variableRule {} {} = (.ok [literalRule], { nodes := 1 }) ∧
      ∃ r, [literalRule] = [r] ∧ r.IsRule ∧ r.IsEvaluated (Value.IsReduced .builtins) ∧
        ∀ layers scope, (Environment.evalRule ⟨.builtins, layers⟩ r scope {}).1 = .ok [r] := by
  have hrule : variableRule.IsRule := trivial
  exact ⟨FunctionTable.givesAtoms_empty, FunctionTable.givesAtoms_builtins, hrule,
    gives_variableRule, evalRule_reaches_fixpoint ⟨.builtins, []⟩ FunctionTable.givesAtoms_builtins
      hrule gives_variableRule⟩

end Rules

end Stylesheet
