import Stylesheet.Css.Flatten
import Stylesheet.Proofs.Selector.Spread

/-!
# What flattening keeps

Flattening lists the style rules of a tree: the root first, then every other rule after the rules
nested in it. Nothing is lost, nothing is written twice, and each rule keeps its own items.

* `PlacedRule`, `Placed`: a style rule with the selectors from the root down to it, and which rules
  can be reached from a body through style rules only.
* `rulesBelow`: the same rules in the order of writing.
* `Outcome`: what flattening some rules gives, as a relation that sequencing keeps.
-/

namespace Stylesheet

/-- A style rule where it stands. -/
structure PlacedRule where
  /-- The selectors from the root down to the rule. -/
  chain : List Selector
  depth : Nat
  body : List Node

/-- `Placed chain nodes r`: going down from `nodes` through style rules only, `r` is reached. -/
inductive Placed : List Selector → List Node → PlacedRule → Prop
  | child {chain : List Selector} {nodes : List Node} {s : Selector} {depth : Nat} {body : List Node}
      (h : .block (.style s depth) body ∈ nodes) : Placed chain nodes ⟨chain ++ [s], depth, body⟩
  | nested {chain : List Selector} {nodes : List Node} {s : Selector} {depth : Nat}
      {body : List Node} {r : PlacedRule} (h : .block (.style s depth) body ∈ nodes)
      (hr : Placed (chain ++ [s]) body r) : Placed chain nodes r

mutual

/-- The style rules within a node, each after those nested in it. -/
def rulesOfNode (chain : List Selector) : Node → List PlacedRule
  | .block (.style s depth) body =>
    rulesBelow (chain ++ [s]) body ++ [⟨chain ++ [s], depth, body⟩]
  | _ => []

def rulesBelow (chain : List Selector) : List Node → List PlacedRule
  | [] => []
  | n :: ns => rulesOfNode chain n ++ rulesBelow chain ns

end

/-- The style rules of a tree: the root, then the others. -/
def rulesOf (s : Selector) (depth : Nat) (body : List Node) : List PlacedRule :=
  ⟨[s], depth, body⟩ :: rulesBelow [s] body

/-! ## Going down through style rules -/

/-- Induction over a body that goes down into its style rules and passes over everything else. -/
@[elab_as_elim]
theorem body_induction {P : List Node → Prop} (nil : P [])
    (style : ∀ s depth body ns, P body → P ns → P (.block (.style s depth) body :: ns))
    (other : ∀ n ns, n.isStyleRule = false → P ns → P (n :: ns)) (nodes : List Node) : P nodes := by
  match nodes with
  | [] => exact nil
  | n :: ns =>
    have hns := body_induction nil style other ns
    cases hn : n.isStyleRule with
    | false => exact other n ns hn hns
    | true =>
      match n, hn with
      | .block (.style s depth) body, _ =>
        exact style s depth body ns (body_induction nil style other body) hns
termination_by sizeOf nodes

theorem rulesOfNode_other (chain : List Selector) {n : Node} (hn : n.isStyleRule = false) :
    rulesOfNode chain n = [] := by
  cases n with
  | block head body =>
    cases head with
    | style s depth => cases hn
    | _ => rw [rulesOfNode]; simp
  | _ => rw [rulesOfNode]; simp

theorem flattenNode_other (chain : List Selector) {n : Node} (hn : n.isStyleRule = false) :
    flattenNode chain n = .ok [] := by
  cases n with
  | block head body =>
    cases head with
    | style s depth => cases hn
    | _ => rw [flattenNode]; simp
  | _ => rw [flattenNode]; simp

theorem rulesBelow_style (chain : List Selector) (s : Selector) (depth : Nat) (body ns : List Node) :
    rulesBelow chain (.block (.style s depth) body :: ns) =
      rulesBelow (chain ++ [s]) body ++ [⟨chain ++ [s], depth, body⟩] ++ rulesBelow chain ns := by
  rw [rulesBelow, rulesOfNode]

theorem rulesBelow_other (chain : List Selector) {n : Node} (hn : n.isStyleRule = false)
    (ns : List Node) : rulesBelow chain (n :: ns) = rulesBelow chain ns := by
  rw [rulesBelow, rulesOfNode_other chain hn, List.nil_append]

theorem flattenNodes_other (chain : List Selector) {n : Node} (hn : n.isStyleRule = false)
    (ns : List Node) : flattenNodes chain (n :: ns) = flattenNodes chain ns := by
  rw [flattenNodes, flattenNode_other chain hn]
  cases flattenNodes chain ns <;> rfl

/-! ## Flattening that succeeds -/

theorem flattenNodes_style_ok {chain : List Selector} {s : Selector} {depth : Nat}
    {body ns : List Node} {flat : List FlatRule}
    (h : flattenNodes chain (.block (.style s depth) body :: ns) = .ok flat) :
    ∃ selector nested rest, flattenNodes (chain ++ [s]) body = .ok nested ∧
      flattenNodes chain ns = .ok rest ∧
      flat = nested ++ [⟨selector, depth, ownItems body⟩] ++ rest := by
  rw [flattenNodes, flattenNode] at h
  cases hselector : Selector.expand (chain ++ [s]) with
  | error e =>
    rw [hselector] at h
    cases h
  | ok selector =>
    cases hbody : flattenNodes (chain ++ [s]) body with
    | error e =>
      rw [hselector, hbody] at h
      cases h
    | ok nested =>
      cases hns : flattenNodes chain ns with
      | error e =>
        rw [hselector, hbody, hns] at h
        cases h
      | ok rest =>
        rw [hselector, hbody, hns] at h
        cases h
        exact ⟨selector, nested, rest, rfl, rfl, rfl⟩

theorem flattenRule_ok {s : Selector} {depth : Nat} {body : List Node} {flat : List FlatRule}
    (h : flattenRule s depth body = .ok flat) :
    ∃ nested, flattenNodes [s] body = .ok nested ∧
      flat = (⟨s, depth, ownItems body⟩ :: nested).filter fun rule => !rule.items.isEmpty := by
  unfold flattenRule at h
  split at h
  · cases h
  · cases hnested : flattenNodes [s] body with
    | error e =>
      rw [hnested] at h
      cases h
    | ok nested =>
      rw [hnested] at h
      cases h
      exact ⟨nested, rfl, rfl⟩

/-! ## Every rule is listed -/

theorem Placed.mono {chain : List Selector} {nodes nodes' : List Node} {r : PlacedRule}
    (h : Placed chain nodes r) (hsub : ∀ n ∈ nodes, n ∈ nodes') : Placed chain nodes' r := by
  cases h with
  | child hmem => exact .child (hsub _ hmem)
  | nested hmem hr => exact .nested (hsub _ hmem) hr

theorem mem_rulesBelow_of_mem {chain : List Selector} {nodes : List Node} {s : Selector} {depth : Nat}
    {body : List Node} {r : PlacedRule} (hmem : .block (.style s depth) body ∈ nodes)
    (hr : r ∈ rulesBelow (chain ++ [s]) body ∨ r = ⟨chain ++ [s], depth, body⟩) :
    r ∈ rulesBelow chain nodes := by
  induction nodes with
  | nil => cases hmem
  | cons n ns ih =>
    rw [rulesBelow, List.mem_append]
    rcases List.mem_cons.1 hmem with rfl | hmem
    · left
      rw [rulesOfNode, List.mem_append, List.mem_singleton]
      exact hr
    · exact .inr (ih hmem)

theorem mem_rulesBelow_of_placed {chain : List Selector} {nodes : List Node} {r : PlacedRule}
    (h : Placed chain nodes r) : r ∈ rulesBelow chain nodes := by
  induction h with
  | child hmem => exact mem_rulesBelow_of_mem hmem (.inr rfl)
  | nested hmem _ ih => exact mem_rulesBelow_of_mem hmem (.inl ih)

theorem placed_of_mem_rulesBelow {chain : List Selector} {nodes : List Node} {r : PlacedRule}
    (h : r ∈ rulesBelow chain nodes) : Placed chain nodes r := by
  induction nodes using body_induction generalizing chain with
  | nil => simp [rulesBelow] at h
  | style s depth body ns ihbody ihns =>
    rw [rulesBelow_style, List.mem_append, List.mem_append, List.mem_singleton] at h
    rcases h with (h | rfl) | h
    · exact .nested List.mem_cons_self (ihbody h)
    · exact .child List.mem_cons_self
    · exact (ihns h).mono fun m hm => List.mem_cons_of_mem _ hm
  | other n ns hn ih =>
    rw [rulesBelow_other chain hn] at h
    exact (ih h).mono fun m hm => List.mem_cons_of_mem n hm

theorem mem_rulesBelow_iff {chain : List Selector} {nodes : List Node} {r : PlacedRule} :
    r ∈ rulesBelow chain nodes ↔ Placed chain nodes r :=
  ⟨placed_of_mem_rulesBelow, mem_rulesBelow_of_placed⟩

theorem Placed.exists_chain {chain : List Selector} {nodes : List Node} {r : PlacedRule}
    (h : Placed chain nodes r) : ∃ below, r.chain = chain ++ below := by
  induction h with
  | child _ => exact ⟨[_], rfl⟩
  | nested _ _ ih =>
    obtain ⟨below, hchain⟩ := ih
    exact ⟨_ :: below, by rw [hchain, List.append_assoc]; rfl⟩

/-! ## One outcome after another -/

/-- `f` is what flattening leaves of the rule `r`. -/
structure Flattens (r : PlacedRule) (f : FlatRule) : Prop where
  depth : f.depth = r.depth
  items : f.items = ownItems r.body
  selector : Selector.expand r.chain = .ok f.selector

/-- Flattening fails because of the rule `r`, which lies too deep. -/
structure FailsAt (r : PlacedRule) (result : Except CompileError (List FlatRule)) : Prop where
  deep : 6 < r.chain.length
  error : ∃ detail, Selector.expand r.chain = .error (.limitExceeded .nestingDepth detail) ∧
    result = .error (.limitExceeded .nestingDepth detail)

/-- Either no rule lies too deep and each is flattened in its place, or one does and that is the
reason of the failure. -/
def Outcome (rules : List PlacedRule) (result : Except CompileError (List FlatRule)) : Prop :=
  ((∀ r ∈ rules, r.chain.length ≤ 6) ∧ ∃ flat, result = .ok flat ∧ List.Forall₂ Flattens rules flat) ∨
  ∃ r ∈ rules, FailsAt r result

theorem Outcome.append {rules rules' : List PlacedRule} {x y : Except CompileError (List FlatRule)}
    (hx : Outcome rules x) (hy : Outcome rules' y) :
    Outcome (rules ++ rules') (do let flat ← x; return flat ++ (← y)) := by
  rcases hx with ⟨hle, flat, rfl, hflat⟩ | ⟨r, hr, hdeep, detail, hexpand, rfl⟩
  · rcases hy with ⟨hle', flat', rfl, hflat'⟩ | ⟨r, hr, hdeep, detail, hexpand, rfl⟩
    · refine .inl ⟨?_, flat ++ flat', rfl, List.rel_append hflat hflat'⟩
      intro r hr
      exact (List.mem_append.1 hr).elim (hle r) (hle' r)
    · exact .inr ⟨r, List.mem_append_right _ hr, hdeep, detail, hexpand, rfl⟩
  · exact .inr ⟨r, List.mem_append_left _ hr, hdeep, detail, hexpand, rfl⟩

-- A rule is expanded before the rules nested in it and written after them. Its own chain is the
-- shortest of all, so whichever of them fails first, the reason is the same.
theorem outcome_rule {s : Selector} {below : List Selector} {depth : Nat} {body : List Node}
    {rules : List PlacedRule} {x : Except CompileError (List FlatRule)}
    (hchain : ∀ t ∈ s :: below, t.IsNormal) (hfirst : s.hasParent = false) (hx : Outcome rules x) :
    Outcome (rules ++ [⟨s :: below, depth, body⟩]) (do
      let selector ← Selector.expand (s :: below)
      let nested ← x
      return nested ++ [⟨selector, depth, ownItems body⟩]) := by
  by_cases hlen : (s :: below).length ≤ 6
  · obtain ⟨selector, hselector, _⟩ := Selector.expand_ok hchain hfirst hlen
    have hself : Outcome [⟨s :: below, depth, body⟩] (.ok [⟨selector, depth, ownItems body⟩]) := by
      refine .inl ⟨?_, _, rfl, .cons ⟨rfl, rfl, hselector⟩ .nil⟩
      intro r hr
      rw [List.mem_singleton.1 hr]
      exact hlen
    have happend := hx.append hself
    rw [hselector]
    exact happend
  · have hdeep := Nat.lt_of_not_le hlen
    have hexpand := Selector.expand_of_length_gt hdeep
    refine .inr ⟨_, List.mem_append_right _ (List.mem_singleton_self _), hdeep, _, hexpand, ?_⟩
    rw [hexpand]
    rfl

theorem outcome_flattenNodes {s : Selector} {below : List Selector} {nodes : List Node}
    (hfirst : s.hasParent = false)
    (hnormal : ∀ r, Placed (s :: below) nodes r → ∀ t ∈ r.chain, t.IsNormal) :
    Outcome (rulesBelow (s :: below) nodes) (flattenNodes (s :: below) nodes) := by
  induction nodes using body_induction generalizing below with
  | nil =>
    rw [rulesBelow, flattenNodes]
    exact .inl ⟨by simp, [], rfl, .nil⟩
  | style t depth body ns ihbody ihns =>
    rw [rulesBelow_style, flattenNodes, flattenNode, List.cons_append]
    have hbody := ihbody fun r hr => hnormal r (.nested List.mem_cons_self hr)
    have hns := ihns fun r hr => hnormal r (hr.mono fun m hm => List.mem_cons_of_mem _ hm)
    have hchain : ∀ u ∈ s :: (below ++ [t]), u.IsNormal :=
      hnormal ⟨s :: below ++ [t], depth, body⟩ (.child List.mem_cons_self)
    exact (outcome_rule hchain hfirst hbody).append hns
  | other n ns hn ih =>
    rw [rulesBelow_other _ hn, flattenNodes_other _ hn]
    exact ih fun r hr => hnormal r (hr.mono fun m hm => List.mem_cons_of_mem n hm)

/-! ## Whole trees -/

/-- `f` is the flat rule of `r` in the tree below `root`. -/
structure IsFlatOf (root : Selector) (r : PlacedRule) (f : FlatRule) : Prop where
  depth : f.depth = r.depth
  items : f.items = r.body.filter fun n => !n.isStyleRule
  no_style : ∀ n ∈ f.items, n.isStyleRule = false
  selector : Selector.expand r.chain = .ok f.selector
  root_selector : r.chain = [root] → f.selector = root

theorem Flattens.isFlatOf {root : Selector} (hroot : root.IsNormal) (hparent : root.hasParent = false)
    {r : PlacedRule} {f : FlatRule} (h : Flattens r f) : IsFlatOf root r f := by
  refine ⟨h.depth, h.items, ?_, h.selector, ?_⟩
  · intro n hn
    rw [h.items, ownItems] at hn
    simpa using (List.mem_filter.1 hn).2
  · intro hchain
    have hselector := h.selector
    rw [hchain, Selector.expand_singleton hroot hparent] at hselector
    exact (Except.ok.inj hselector).symm

theorem ownItems_isEmpty (body : List Node) :
    (!(ownItems body).isEmpty) = body.any fun n => !n.isStyleRule := by
  induction body with
  | nil => rfl
  | cons n ns ih =>
    rw [List.any_cons, ← ih, ownItems, List.filter_cons]
    cases n.isStyleRule <;> simp [ownItems]

theorem flattenRule_of_hasParent {s : Selector} (h : s.hasParent = true) (depth : Nat)
    (body : List Node) : flattenRule s depth body = .error (.parentOutsideRule s.text) := by
  simp [flattenRule, h]

-- The root is written first and the flat rules without items are dropped; neither changes whether
-- flattening fails.
theorem flattenRule_of_outcome {s : Selector} (hs : s.IsNormal) (hparent : s.hasParent = false)
    (depth : Nat) (body : List Node) (h : Outcome (rulesBelow [s] body) (flattenNodes [s] body)) :
    ((∀ r ∈ rulesBelow [s] body, r.chain.length ≤ 6) ∧
      ∃ flat, flattenRule s depth body = .ok flat ∧
        List.Forall₂ (IsFlatOf s) ((rulesOf s depth body).filter
          fun r => r.body.any fun n => !n.isStyleRule) flat) ∨
    ∃ r ∈ rulesBelow [s] body, FailsAt r (flattenRule s depth body) := by
  unfold flattenRule
  rw [if_neg (by simp [hparent])]
  refine h.imp ?_ ?_
  · rintro ⟨hle, nested, hok, hnested⟩
    have hself : Flattens ⟨[s], depth, body⟩ ⟨s, depth, ownItems body⟩ :=
      ⟨rfl, rfl, Selector.expand_singleton hs hparent⟩
    have hfilter : List.Forall₂ Flattens
        ((rulesOf s depth body).filter fun r => r.body.any fun n => !n.isStyleRule)
        ((⟨s, depth, ownItems body⟩ :: nested).filter fun flat => !flat.items.isEmpty) := by
      refine List.rel_filter ?_ (List.Forall₂.cons hself hnested)
      intro r f hrf
      show (r.body.any fun n => !n.isStyleRule) = true ↔ (!f.items.isEmpty) = true
      rw [hrf.items, ownItems_isEmpty]
    refine ⟨hle, _, ?_, hfilter.imp fun r f => Flattens.isFlatOf hs hparent⟩
    rw [hok]
    rfl
  · rintro ⟨r, hr, hdeep, detail, hexpand, herror⟩
    refine ⟨r, hr, hdeep, detail, hexpand, ?_⟩
    rw [herror]
    rfl

/-- Flattening a tree of non-empty selectors fails for `&` at the root exactly if it stands there,
else for the depth exactly if some rule lies more than six levels deep; else each rule with items of
its own leaves one flat rule, in the order of `rulesOf`, and no other rule leaves any. -/
theorem flattenRule_lists_rules (s : Selector) (depth : Nat) (body : List Node)
    (hroot : s.isEmpty = false ∧ ∃ alts, s = .ofAlternatives alts)
    (hbelow : ∀ r, Placed [s] body r → ∀ t ∈ r.chain,
      t.isEmpty = false ∧ ∃ alts, t = .ofAlternatives alts) :
    ((∃ text, flattenRule s depth body = .error (.parentOutsideRule text)) ↔ s.hasParent = true) ∧
    (s.hasParent = false →
      ((∃ detail, flattenRule s depth body = .error (.limitExceeded .nestingDepth detail)) ↔
        ∃ r, Placed [s] body r ∧ 6 < r.chain.length) ∧
      ((∀ r, Placed [s] body r → r.chain.length ≤ 6) →
        ∃ flat, flattenRule s depth body = .ok flat ∧
          List.Forall₂ (IsFlatOf s) ((rulesOf s depth body).filter
            fun r => r.body.any fun n => !n.isStyleRule) flat)) := by
  have hs : s.IsNormal := (Selector.isNormal_iff s).2 hroot
  have hnormal : ∀ r, Placed [s] body r → ∀ t ∈ r.chain, t.IsNormal :=
    fun r hr t ht => (Selector.isNormal_iff t).2 (hbelow r hr t ht)
  cases hparent : s.hasParent with
  | true =>
    have hfail := flattenRule_of_hasParent hparent depth body
    exact ⟨⟨fun _ => rfl, fun _ => ⟨_, hfail⟩⟩, fun h => by cases h⟩
  | false =>
    have houtcome := flattenRule_of_outcome hs hparent depth body
      (outcome_flattenNodes hparent hnormal)
    rcases houtcome with ⟨hle, flat, hok, hflat⟩ | ⟨r, hr, hdeep, detail, _, herror⟩
    · refine ⟨⟨?_, fun h => by cases h⟩, fun _ => ⟨⟨?_, ?_⟩, fun _ => ⟨flat, hok, hflat⟩⟩⟩
      · rintro ⟨text, htext⟩
        rw [hok] at htext
        cases htext
      · rintro ⟨detail, hdetail⟩
        rw [hok] at hdetail
        cases hdetail
      · rintro ⟨r, hr, hdeep⟩
        exact absurd (hle r (mem_rulesBelow_iff.2 hr)) (by omega)
    · have hplaced : Placed [s] body r := mem_rulesBelow_iff.1 hr
      refine ⟨⟨?_, fun h => by cases h⟩, fun _ =>
        ⟨⟨fun _ => ⟨r, hplaced, hdeep⟩, fun _ => ⟨detail, herror⟩⟩, ?_⟩⟩
      · rintro ⟨text, htext⟩
        rw [herror] at htext
        cases htext
      · intro hle
        exact absurd (hle r hplaced) (by omega)

/-- Of four nested rules, the two with items of their own are left, the inner one first. -/
theorem flattenRule_lists_two_of_four :
    ∃ outer inner, flattenRule ⟨[[.word "a"]]⟩ 1
      [.block (.style ⟨[[.word "b"], [.word "c"]]⟩ 2) [
          .block (.style ⟨[[.parent, .word ".d"]]⟩ 3) [.importRule "x"], .importRule "y"],
        .block (.style ⟨[[.word "e"]]⟩ 2) []] = .ok [inner, outer] ∧
      inner.items = [.importRule "x"] ∧ outer.items = [.importRule "y"] ∧
      Selector.expand [⟨[[.word "a"]]⟩, ⟨[[.word "b"], [.word "c"]]⟩, ⟨[[.parent, .word ".d"]]⟩] =
        .ok inner.selector := by
  have htree := (flattenRule_lists_rules ⟨[[.word "a"]]⟩ 1
    [.block (.style ⟨[[.word "b"], [.word "c"]]⟩ 2) [
        .block (.style ⟨[[.parent, .word ".d"]]⟩ 3) [.importRule "x"], .importRule "y"],
      .block (.style ⟨[[.word "e"]]⟩ 2) []] ⟨rfl, [[.word "a"]], rfl⟩ ?_).2 rfl |>.2 ?_
  · obtain ⟨flat, hflat, hrules⟩ := htree
    cases hrules with
    | cons hinner hrest =>
      cases hrest with
      | cons houter hnil =>
        cases hnil
        exact ⟨_, _, hflat, hinner.items, houter.items, hinner.selector⟩
  · intro r hr t ht
    have hmem := mem_rulesBelow_iff.2 hr
    simp only [rulesBelow, rulesOfNode, List.nil_append, List.append_nil, List.cons_append,
      List.mem_cons, List.not_mem_nil, or_false] at hmem
    refine ⟨?_, t.alternatives, ?_⟩ <;>
    · rcases hmem with rfl | rfl | rfl <;>
      · simp only [List.mem_cons, List.not_mem_nil, or_false] at ht
        rcases ht with rfl | rfl | rfl <;> rfl
  · intro r hr
    have hmem := mem_rulesBelow_iff.2 hr
    simp only [rulesBelow, rulesOfNode, List.nil_append, List.append_nil, List.cons_append,
      List.mem_cons, List.not_mem_nil, or_false] at hmem
    rcases hmem with rfl | rfl | rfl <;> simp

end Stylesheet
