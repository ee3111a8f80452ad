import Mathlib
import Stylesheet.Css.Layout
import Stylesheet.Proofs.Css.Flattening
import Stylesheet.Proofs.Selector.Ancestry

/-!
# Style rules inside at-rules

A style rule is written with the selectors of the style rules around it, but only of those inside the
innermost at-rule that it stands in: beyond an at-rule flattening starts again.

* `Css.headers`: the heads of the blocks of a stylesheet in the order of writing.
* `BlockPlace`, `placesOf`: the blocks that a rule tree is written as, each style rule with all the
  selectors around it, those beyond an at-rule apart from the others.
* `Lays`: work that writes the blocks of some places, or fails for one of them.
-/

namespace Stylesheet

/-! ## Heads of blocks -/

namespace Css

mutual

/-- The heads of a block and of the blocks in it. -/
def headers : Css → List (List String)
  | .block header _ body => header :: allHeaders body
  | _ => []

def allHeaders : List Css → List (List String)
  | [] => []
  | item :: items => headers item ++ allHeaders items

end

theorem allHeaders_eq_flatMap (items : List Css) : allHeaders items = items.flatMap headers := by
  induction items with
  | nil => rfl
  | cons item items ih => rw [allHeaders, List.flatMap_cons, ih]

theorem allHeaders_flatten (bodies : List (List Css)) :
    allHeaders bodies.flatten = bodies.flatMap allHeaders := by
  induction bodies with
  | nil => rfl
  | cons body bodies ih =>
    rw [List.flatten_cons, List.flatMap_cons, ← ih]
    simp only [allHeaders_eq_flatMap, List.flatMap_append]

end Css

/-! ## Heights -/

theorem Node.height_le_heightAll {n : Node} {ns : List Node} (h : n ∈ ns) :
    n.height ≤ heightAll ns := by
  induction ns with
  | nil => cases h
  | cons m ns ih =>
    rw [heightAll]
    rcases List.mem_cons.1 h with rfl | h
    · exact le_max_left _ _
    · exact (ih h).trans (le_max_right _ _)

theorem Placed.heightAll_le {chain : List Selector} {nodes : List Node} {r : PlacedRule}
    (h : Placed chain nodes r) : Node.heightAll r.body ≤ Node.heightAll nodes := by
  induction h with
  | child hmem =>
    have hheight := Node.height_le_heightAll hmem
    rw [Node.height] at hheight
    exact Nat.le_of_succ_le hheight
  | nested hmem _ ih =>
    have hheight := Node.height_le_heightAll hmem
    rw [Node.height] at hheight
    omega

theorem height_le_of_mem_rulesOf {s : Selector} {depth : Nat} {body : List Node} {r : PlacedRule}
    (hr : r ∈ rulesOf s depth body) {n : Node} (hn : n ∈ ownItems r.body) :
    n.height ≤ Node.heightAll body := by
  refine (Node.height_le_heightAll (List.mem_filter.1 hn).1).trans ?_
  rcases List.mem_cons.1 hr with rfl | hr
  · exact le_refl _
  · exact (mem_rulesBelow_iff.1 hr).heightAll_le

/-! ## Places -/

/-- A block that a rule tree is written as. -/
inductive BlockPlace where
  /-- A style rule with its own items. `run` holds the selectors of the style rules around it inside
  the innermost at-rule, and its own; `outer` holds those of the style rules beyond that. -/
  | style (outer run : List Selector) (items : List Node)
  | atRule (header : String)

namespace BlockPlace

/-- Rules that keep no items are not written. -/
def isWritten : BlockPlace → Bool
  | .style _ _ items => !items.isEmpty
  | .atRule _ => true

/-- The selectors of all style rules around a place, outermost first, and its own. -/
def selectors : BlockPlace → List Selector
  | .style outer run _ => outer ++ run
  | .atRule _ => []

/-- The head that flattening gives a place. -/
def header : BlockPlace → Except CompileError (List String)
  | .style _ run _ => (Selector.expand run).map Selector.css
  | .atRule header => .ok [header]

end BlockPlace

section Layout

variable (context : Context)

/-- The heads that a block other than a style rule is written under, once under each. -/
def headersOf : Head → List String
  | .style _ _ => []
  | .media query => ["@media " ++ query]
  | .fontFace => ["@font-face"]
  | .keyframes name =>
    ((legacyTargets context.targets).map fun b => "@" ++ b.vendor.mark ++ "keyframes " ++ name) ++
      ["@keyframes " ++ name]
  | .atRule name prelude => [atRuleText name prelude]

/-- The places of a node in the order of writing; `outer` holds the selectors of the style rules
around it. Each rule that flattening lists comes with the places among its own items. -/
def placesOf (outer : List Selector) : Node → List BlockPlace
  | .block (.style s depth) body =>
    (rulesOf s depth body).attach.flatMap fun ⟨r, _⟩ =>
      .style outer r.chain (ownItems r.body) ::
        (ownItems r.body).attach.flatMap fun ⟨n, _⟩ => placesOf (outer ++ r.chain) n
  | .block head body =>
    (headersOf context head).flatMap fun text =>
      .atRule text :: body.attach.flatMap fun ⟨n, _⟩ => placesOf outer n
  | _ => []
termination_by node => node.height
decreasing_by
  · rw [Node.height]
    exact Nat.lt_succ_of_le (height_le_of_mem_rulesOf ‹_› ‹_›)
  · rw [Node.height]
    exact Nat.lt_succ_of_le (Node.height_le_heightAll ‹_›)

variable {context}

theorem placesOf_style (outer : List Selector) (s : Selector) (depth : Nat) (body : List Node) :
    placesOf context outer (.block (.style s depth) body) =
      (rulesOf s depth body).flatMap fun r =>
        .style outer r.chain (ownItems r.body) ::
          (ownItems r.body).flatMap (placesOf context (outer ++ r.chain)) := by
  rw [placesOf]
  simp

theorem placesOf_block (outer : List Selector) {head : Head} {body : List Node}
    (h : (Node.block head body).isStyleRule = false) :
    placesOf context outer (.block head body) =
      (headersOf context head).flatMap fun text =>
        .atRule text :: body.flatMap (placesOf context outer) := by
  cases head with
  | style s depth => cases h
  | _ => rw [placesOf] <;> simp

theorem placesOf_leaf (outer : List Selector) {node : Node} (h : node.body? = none) :
    placesOf context outer node = [] := by
  cases node with
  | block head body => cases h
  | _ => rw [placesOf] <;> simp

/-! ## Work that writes places -/

/-- The heads of the places that are written. -/
def Writes (places : List BlockPlace) (headers : List (List String)) : Prop :=
  List.Forall₂ (fun p h => p.header = .ok h) (places.filter BlockPlace.isWritten) headers

/-- Whatever the targets are: either all places have heads, and the work gives something that shows
those that are written by way of `view`; or some place has none, and the work fails as it does. -/
def Lays {α : Type} (places : List BlockPlace) (view : α → List (List String)) (work : Layout α) : Prop :=
  ∀ targets,
    ((∀ p ∈ places, ∃ h, p.header = .ok h) ∧
      ∃ a targets', work targets = .ok (a, targets') ∧ Writes places (view a)) ∨
    ∃ p ∈ places, ∃ e, p.header = .error e ∧ work targets = .error e

namespace Lays

variable {α β γ : Type} {places places' : List BlockPlace}
  {view : α → List (List String)} {view' : β → List (List String)} {view'' : γ → List (List String)}
  {work : Layout α} {work' : Layout β}

theorem of_get {f : List Browser → α} (hview : ∀ targets, view (f targets) = []) :
    Lays [] view (do return f (← get)) := by
  intro targets
  refine .inl ⟨by simp, f targets, targets, rfl, ?_⟩
  rw [hview]
  exact .nil

theorem of_pure {a : α} (hview : view a = []) : Lays [] view (pure a) := by
  intro targets
  refine .inl ⟨by simp, a, targets, rfl, ?_⟩
  rw [hview]
  exact .nil

theorem map (h : Lays places view work) {f : α → β} (hview : ∀ a, view' (f a) = view a) :
    Lays places view' (do return f (← work)) := by
  intro targets
  rcases h targets with ⟨hok, a, targets', hwork, hwrites⟩ | ⟨p, hp, e, he, hwork⟩
  · refine .inl ⟨hok, f a, targets', ?_, ?_⟩
    · simp only [bind, StateT.bind, hwork]
      rfl
    · rw [hview]
      exact hwrites
  · refine .inr ⟨p, hp, e, he, ?_⟩
    simp only [bind, StateT.bind, hwork]
    rfl

theorem seq (h : Lays places view work) (h' : Lays places' view' work') {f : α → β → γ}
    (hview : ∀ a b, view'' (f a b) = view a ++ view' b) :
    Lays (places ++ places') view'' (do
      let a ← work
      let b ← work'
      return f a b) := by
  intro targets
  rcases h targets with ⟨hok, a, targets', hwork, hwrites⟩ | ⟨p, hp, e, he, hwork⟩
  · rcases h' targets' with ⟨hok', b, targets'', hwork', hwrites'⟩ | ⟨p, hp, e, he, hwork'⟩
    · refine .inl ⟨?_, f a b, targets'', ?_, ?_⟩
      · intro p hp
        exact (List.mem_append.1 hp).elim (hok p) (hok' p)
      · simp only [bind, StateT.bind, hwork, Except.bind, hwork']
        rfl
      · rw [hview, Writes, List.filter_append]
        exact List.rel_append hwrites hwrites'
    · refine .inr ⟨p, List.mem_append_right _ hp, e, he, ?_⟩
      simp only [bind, StateT.bind, hwork, Except.bind, hwork']
  · refine .inr ⟨p, List.mem_append_left _ hp, e, he, ?_⟩
    simp only [bind, StateT.bind, hwork, Except.bind]

theorem mapM {δ ι : Type} {g : ι → List BlockPlace} {work : δ → Layout α} {is : List ι} {xs : List δ}
    (h : List.Forall₂ (fun i x => Lays (g i) view (work x)) is xs) :
    Lays (is.flatMap g) (fun as => as.flatMap view) (xs.mapM work) := by
  induction h with
  | nil => exact of_pure rfl
  | cons hhead _ ih =>
    rw [List.flatMap_cons, List.mapM_cons]
    exact hhead.seq ih fun a as => List.flatMap_cons

theorem withTargets (context : Context) (targets : List Browser) (h : Lays places view work) :
    Lays places view (withTargets context targets work) := by
  intro start
  rcases h targets with ⟨hok, a, targets', hwork, hwrites⟩ | ⟨p, hp, e, he, hwork⟩
  · refine .inl ⟨hok, a, context.targets, ?_, hwrites⟩
    simp only [Stylesheet.withTargets, bind, StateT.bind, set, StateT.set, pure, Except.pure,
      Except.bind, hwork]
    rfl
  · refine .inr ⟨p, hp, e, he, ?_⟩
    simp only [Stylesheet.withTargets, bind, StateT.bind, set, StateT.set, pure, Except.pure,
      Except.bind, hwork]

theorem block {p : BlockPlace} {header : List String} {items : List Node}
    {layout : Node → Layout (List Css)} (hp : p.header = .ok header) (hwritten : p.isWritten = true)
    (h : Lays places (fun bodies => bodies.flatMap Css.allHeaders) (items.mapM layout)) :
    Lays (p :: places) Css.headers (layoutBlockBy context layout header items) := by
  intro targets
  rcases h targets with ⟨hok, bodies, targets', hwork, hwrites⟩ | ⟨q, hq, e, he, hwork⟩
  · refine .inl ⟨?_, .block header (isCondensed context items targets) bodies.flatten, targets',
      ?_, ?_⟩
    · intro q hq
      rcases List.mem_cons.1 hq with rfl | hq
      · exact ⟨header, hp⟩
      · exact hok q hq
    · simp only [layoutBlockBy, bind, StateT.bind, get, getThe, MonadStateOf.get, StateT.get, pure,
        Except.pure, Except.bind, hwork]
      rfl
    · rw [Writes, List.filter_cons_of_pos hwritten, Css.headers, Css.allHeaders_flatten]
      exact .cons hp hwrites
  · refine .inr ⟨q, List.mem_cons_of_mem p hq, e, he, ?_⟩
    simp only [layoutBlockBy, bind, StateT.bind, get, getThe, MonadStateOf.get, StateT.get, pure,
      Except.pure, Except.bind, hwork]

theorem filter_flatMap_filter {rules : List PlacedRule} {keep : PlacedRule → Bool}
    {g : PlacedRule → List BlockPlace}
    (hdropped : ∀ r ∈ rules, keep r = false → ∀ p ∈ g r, p.isWritten = false) :
    ((rules.filter keep).flatMap g).filter BlockPlace.isWritten =
      (rules.flatMap g).filter BlockPlace.isWritten := by
  induction rules with
  | nil => rfl
  | cons r rules ih =>
    have ih := ih fun r hr => hdropped r (List.mem_cons_of_mem _ hr)
    cases hkeep : keep r with
    | true =>
      rw [List.filter_cons_of_pos hkeep, List.flatMap_cons, List.flatMap_cons, List.filter_append,
        List.filter_append, ih]
    | false =>
      have hnone : (g r).filter BlockPlace.isWritten = [] :=
        List.filter_eq_nil_iff.2 fun p hp => by
          simp [hdropped r List.mem_cons_self hkeep p hp]
      rw [List.filter_cons_of_neg (by simp [hkeep]), List.flatMap_cons, List.filter_append, hnone,
        ih, List.nil_append]

/-- Rules that are dropped have one place each, with a head that is not written. -/
theorem of_filter {rules : List PlacedRule} {keep : PlacedRule → Bool}
    {g : PlacedRule → List BlockPlace}
    (hdropped : ∀ r ∈ rules, keep r = false →
      ∃ p, g r = [p] ∧ p.isWritten = false ∧ ∃ h, p.header = .ok h)
    (h : Lays ((rules.filter keep).flatMap g) view work) : Lays (rules.flatMap g) view work := by
  have hkept : ((rules.filter keep).flatMap g).filter BlockPlace.isWritten =
      (rules.flatMap g).filter BlockPlace.isWritten := by
    refine filter_flatMap_filter fun r hr hkeep p hp => ?_
    obtain ⟨q, hq, hwritten, -⟩ := hdropped r hr hkeep
    rw [hq, List.mem_singleton] at hp
    rw [hp]
    exact hwritten
  intro targets
  rcases h targets with ⟨hok, a, targets', hwork, hwrites⟩ | ⟨p, hp, e, he, hwork⟩
  · refine .inl ⟨?_, a, targets', hwork, ?_⟩
    · intro p hp
      obtain ⟨r, hr, hpr⟩ := List.mem_flatMap.1 hp
      cases hkeep : keep r with
      | true => exact hok p (List.mem_flatMap.2 ⟨r, List.mem_filter.2 ⟨hr, hkeep⟩, hpr⟩)
      | false =>
        obtain ⟨q, hq, -, hheader⟩ := hdropped r hr hkeep
        rw [hq, List.mem_singleton] at hpr
        rw [hpr]
        exact hheader
    · rw [Writes, ← hkept]
      exact hwrites
  · obtain ⟨r, hr, hpr⟩ := List.mem_flatMap.1 hp
    exact .inr ⟨p, List.mem_flatMap.2 ⟨r, (List.mem_filter.1 hr).1, hpr⟩, e, he, hwork⟩

end Lays

/-! ## Whole trees -/

theorem lays_flat {outer : List Selector} {s : Selector} {layout : Node → Layout (List Css)}
    {rules : List PlacedRule} {flat : List FlatRule}
    (hflat : List.Forall₂ (IsFlatOf s)
      (rules.filter fun r => r.body.any fun n => !n.isStyleRule) flat)
    (hitems : ∀ r ∈ rules, ∀ n ∈ ownItems r.body,
      Lays (placesOf context (outer ++ r.chain) n) Css.allHeaders (layout n))
    (hexpand : ∀ r ∈ rules, ∃ selector, Selector.expand r.chain = .ok selector) :
    Lays (rules.flatMap fun r => .style outer r.chain (ownItems r.body) ::
        (ownItems r.body).flatMap (placesOf context (outer ++ r.chain))) Css.allHeaders
      (flat.mapM fun rule => layoutBlockBy context layout rule.selector.css rule.items) := by
  have hdropped : ∀ r ∈ rules, (r.body.any fun n => !n.isStyleRule) = false →
      ∃ p, .style outer r.chain (ownItems r.body) ::
          (ownItems r.body).flatMap (placesOf context (outer ++ r.chain)) = [p] ∧
        p.isWritten = false ∧ ∃ h, p.header = .ok h := by
    intro r hr hkeep
    obtain ⟨selector, hselector⟩ := hexpand r hr
    rw [← ownItems_isEmpty, Bool.not_eq_false', List.isEmpty_iff] at hkeep
    rw [hkeep]
    exact ⟨_, rfl, rfl, selector.css, by rw [BlockPlace.header, hselector]; rfl⟩
  refine Lays.of_filter hdropped ?_
  rw [show Css.allHeaders = fun items => items.flatMap Css.headers from
    funext Css.allHeaders_eq_flatMap]
  have hkept := (List.forall₂_and_left _ _).2 ⟨fun r hr => List.mem_filter.1 hr, hflat⟩
  refine Lays.mapM (hkept.imp ?_)
  rintro r f ⟨⟨hr, hkeep⟩, hf⟩
  have hown : f.items = ownItems r.body := hf.items
  refine Lays.block ?_ ?_ ?_
  · rw [BlockPlace.header, hf.selector]
    rfl
  · rw [BlockPlace.isWritten, ownItems_isEmpty]
    exact hkeep
  · rw [hown]
    exact Lays.mapM (List.forall₂_same.2 fun n hn => hitems r hr n hn)

theorem lays_style {outer : List Selector} {s : Selector} {depth : Nat} {body : List Node}
    {layout : Node → Layout (List Css)}
    (hnormal : ∀ r ∈ rulesOf s depth body, ∀ t ∈ r.chain, t.IsNormal)
    (hitems : ∀ r ∈ rulesOf s depth body, ∀ n ∈ ownItems r.body,
      Lays (placesOf context (outer ++ r.chain) n) Css.allHeaders (layout n)) :
    Lays (placesOf context outer (.block (.style s depth) body)) Css.allHeaders (do
      let flat ← (flattenRule s depth body : Except CompileError (List FlatRule))
      flat.mapM fun rule => layoutBlockBy context layout rule.selector.css rule.items) := by
  rw [placesOf_style]
  have hs : s.IsNormal := hnormal _ List.mem_cons_self s (List.mem_singleton_self s)
  have hmem : ∀ r ∈ rulesOf s depth body, BlockPlace.style outer r.chain (ownItems r.body) ∈
      (rulesOf s depth body).flatMap fun r => .style outer r.chain (ownItems r.body) ::
        (ownItems r.body).flatMap (placesOf context (outer ++ r.chain)) :=
    fun r hr => List.mem_flatMap.2 ⟨r, hr, List.mem_cons_self⟩
  cases hparent : s.hasParent with
  | true =>
    intro targets
    refine .inr ⟨_, hmem _ List.mem_cons_self, .parentOutsideRule s.text, ?_, ?_⟩
    · rw [BlockPlace.header, Selector.expand_of_hasParent hparent (by simp)]
      rfl
    · rw [flattenRule_of_hasParent hparent]
      rfl
  | false =>
    have hbelow : ∀ r, Placed [s] body r → ∀ t ∈ r.chain, t.IsNormal :=
      fun r hr => hnormal r (List.mem_cons_of_mem _ (mem_rulesBelow_iff.2 hr))
    rcases flattenRule_of_outcome hs hparent depth body (outcome_flattenNodes hparent hbelow) with
      ⟨hle, flat, hok, hflat⟩ | ⟨r, hr, hdeep, detail, hexpand, herror⟩
    · rw [hok]
      refine lays_flat hflat hitems ?_
      intro r hr
      have hchain := hnormal r hr
      rcases List.mem_cons.1 hr with rfl | hr
      · exact ⟨s, Selector.expand_singleton hs hparent⟩
      · obtain ⟨below, hbelow⟩ := (mem_rulesBelow_iff.1 hr).exists_chain
        have hlen := hle r hr
        rw [hbelow] at hchain hlen ⊢
        obtain ⟨selector, hselector, -⟩ := Selector.expand_ok hchain hparent hlen
        exact ⟨selector, hselector⟩
    · intro targets
      refine .inr ⟨_, hmem r (List.mem_cons_of_mem _ hr), .limitExceeded .nestingDepth detail, ?_, ?_⟩
      · rw [BlockPlace.header, hexpand]
        rfl
      · rw [herror]
        rfl

theorem lays_single {outer : List Selector} {layout : Node → Layout (List Css)} {body : List Node}
    (hitems : ∀ m ∈ body, Lays (placesOf context outer m) Css.allHeaders (layout m)) (text : String) :
    Lays (.atRule text :: body.flatMap (placesOf context outer)) Css.headers
      (layoutBlockBy context layout [text] body) :=
  Lays.block rfl rfl (Lays.mapM (List.forall₂_same.2 hitems))

theorem lays_keyframes {outer : List Selector} {layout : Node → Layout (List Css)}
    {body : List Node} {name : String}
    (hitems : ∀ m ∈ body, Lays (placesOf context outer m) Css.allHeaders (layout m)) :
    Lays (placesOf context outer (.block (.keyframes name) body)) Css.allHeaders
      (layoutKeyframesBy context layout name body) := by
  rw [placesOf_block outer rfl, headersOf, List.flatMap_append, List.flatMap_map,
    List.flatMap_singleton]
  have hcopies := Lays.mapM (List.forall₂_same.2 fun b (_ : b ∈ legacyTargets context.targets) =>
    (lays_single hitems ("@" ++ b.vendor.mark ++ "keyframes " ++ name)).withTargets context [b])
  have hstandard := (lays_single hitems ("@keyframes " ++ name)).withTargets context []
  refine hcopies.seq hstandard ?_
  intro copies standard
  rw [Css.allHeaders_eq_flatMap, List.flatMap_append, List.flatMap_singleton]

theorem headersOf_ne_nil {head : Head} {body : List Node}
    (h : (Node.block head body).isStyleRule = false) : headersOf context head ≠ [] := by
  cases head with
  | style s depth => cases h
  | _ => simp [headersOf]

theorem mem_placesOf_block {outer : List Selector} {head : Head} {body : List Node}
    (h : (Node.block head body).isStyleRule = false) {m : Node} (hm : m ∈ body) {p : BlockPlace}
    (hp : p ∈ placesOf context outer m) : p ∈ placesOf context outer (.block head body) := by
  obtain ⟨text, htext⟩ : ∃ text, text ∈ headersOf context head :=
    List.exists_mem_of_ne_nil _ (headersOf_ne_nil h)
  rw [placesOf_block outer h]
  exact List.mem_flatMap.2 ⟨text, htext,
    List.mem_cons_of_mem _ (List.mem_flatMap.2 ⟨m, hm, hp⟩)⟩

theorem mem_placesOf_style {outer : List Selector} {s : Selector} {depth : Nat} {body : List Node}
    {r : PlacedRule} (hr : r ∈ rulesOf s depth body) {p : BlockPlace}
    (hp : p = .style outer r.chain (ownItems r.body) ∨
      ∃ m ∈ ownItems r.body, p ∈ placesOf context (outer ++ r.chain) m) :
    p ∈ placesOf context outer (.block (.style s depth) body) := by
  rw [placesOf_style]
  refine List.mem_flatMap.2 ⟨r, hr, ?_⟩
  rw [List.mem_cons, List.mem_flatMap]
  exact hp

-- The layout goes down by one level of blocks at each step, and so does the induction. Flattening
-- takes several levels at once, which leaves the items even lower.
theorem lays_layoutIn {n : Nat} {node : Node} {outer : List Selector} (hheight : node.height ≤ n)
    (hnormal : ∀ p ∈ placesOf context outer node, ∀ t ∈ p.selectors, t.IsNormal) :
    Lays (placesOf context outer node) Css.allHeaders (layoutIn context n node) := by
  induction n generalizing node outer with
  | zero => cases node <;> cases hheight
  | succ n ih =>
    cases node with
    | block head body =>
      rw [Node.height] at hheight
      have hitems : (Node.block head body).isStyleRule = false →
          ∀ m ∈ body, Lays (placesOf context outer m) Css.allHeaders (layoutIn context n m) := by
        intro hhead m hm
        have hlow := Node.height_le_heightAll hm
        exact ih (by omega) fun p hp => hnormal p (mem_placesOf_block hhead hm hp)
      have hsingle : (Node.block head body).isStyleRule = false → ∀ text,
          Lays (.atRule text :: body.flatMap (placesOf context outer)) Css.allHeaders
            (do return [← layoutBlockBy context (layoutIn context n) [text] body]) := by
        intro hhead text
        exact (lays_single (hitems hhead) text).map fun block => List.append_nil _
      cases head with
      | style s depth =>
        refine lays_style ?_ ?_
        · intro r hr t ht
          exact hnormal _ (mem_placesOf_style hr (.inl rfl)) t (List.mem_append_right _ ht)
        · intro r hr m hm
          have hlow := height_le_of_mem_rulesOf hr hm
          exact ih (by omega) fun p hp => hnormal p (mem_placesOf_style hr (.inr ⟨m, hm, hp⟩))
      | media query =>
        rw [placesOf_block outer rfl, headersOf, List.flatMap_singleton]
        exact hsingle rfl _
      | fontFace =>
        rw [placesOf_block outer rfl, headersOf, List.flatMap_singleton]
        exact hsingle rfl _
      | keyframes name => exact lays_keyframes (hitems rfl)
      | atRule name prelude =>
        rw [placesOf_block outer rfl, headersOf, List.flatMap_singleton]
        exact hsingle rfl _
    | declaration d =>
      rw [placesOf_leaf outer rfl]
      refine Lays.of_get fun targets => ?_
      rw [layoutDeclaration, Css.allHeaders_eq_flatMap, List.flatMap_append, List.flatMap_map]
      simp [Css.headers]
    | _ =>
      rw [placesOf_leaf outer rfl]
      exact Lays.of_pure rfl

theorem chain_ne_nil_of_mem_rulesOf {s : Selector} {depth : Nat} {body : List Node} {r : PlacedRule}
    (hr : r ∈ rulesOf s depth body) : r.chain ≠ [] := by
  rcases List.mem_cons.1 hr with rfl | hr
  · simp
  · obtain ⟨below, hbelow⟩ := (mem_rulesBelow_iff.1 hr).exists_chain
    simp [hbelow]

theorem run_ne_nil {n : Nat} {node : Node} {around outer run : List Selector} {items : List Node}
    (hheight : node.height ≤ n) (h : .style outer run items ∈ placesOf context around node) :
    run ≠ [] := by
  induction n generalizing node around with
  | zero => cases node <;> cases hheight
  | succ n ih =>
    cases hbody : node.body? with
    | none =>
      rw [placesOf_leaf around hbody] at h
      cases h
    | some body =>
      obtain ⟨head, rfl⟩ : ∃ head, node = .block head body := by
        cases node <;> simp_all [Node.body?]
      rw [Node.height] at hheight
      cases hstyle : (Node.block head body).isStyleRule with
      | true =>
        cases head with
        | style s depth =>
          rw [placesOf_style] at h
          obtain ⟨r, hr, hp⟩ := List.mem_flatMap.1 h
          rcases List.mem_cons.1 hp with hp | hp
          · cases hp
            exact chain_ne_nil_of_mem_rulesOf hr
          · obtain ⟨m, hm, hp⟩ := List.mem_flatMap.1 hp
            have hlow := height_le_of_mem_rulesOf hr hm
            exact ih (by omega) hp
        | _ => cases hstyle
      | false =>
        rw [placesOf_block around hstyle] at h
        obtain ⟨text, htext, hp⟩ := List.mem_flatMap.1 h
        rcases List.mem_cons.1 hp with hp | hp
        · cases hp
        · obtain ⟨m, hm, hp⟩ := List.mem_flatMap.1 hp
          have hlow := Node.height_le_heightAll hm
          exact ih (by omega) hp

/-- A rule tree is laid out exactly if the run of each of its style rules can be expanded, that is,
does not start with `&` and has at most six selectors; the heads written are the expanded runs.
Selectors beyond an at-rule are left out, so that a rule is written with all the selectors around it
if and only if there are none beyond the innermost at-rule. -/
theorem layoutRule_starts_again_in_at_rules (context : Context) (rule : Node)
    (hrule : ∀ p ∈ placesOf context [] rule, ∀ s ∈ p.selectors,
      s.isEmpty = false ∧ ∃ alts, s = .ofAlternatives alts) :
    (((∀ p ∈ placesOf context [] rule, ∃ h, p.header = .ok h) ∧
        ∃ css, layoutRule context rule = .ok css ∧
          List.Forall₂ (fun p h => p.header = .ok h)
            ((placesOf context [] rule).filter BlockPlace.isWritten) (Css.allHeaders css)) ∨
      ∃ p ∈ placesOf context [] rule, ∃ e, p.header = .error e ∧ layoutRule context rule = .error e) ∧
    ∀ outer run items, .style outer run items ∈ placesOf context [] rule →
      ((∃ e, Selector.expand run = .error e) ↔
        (∃ s ∈ run.head?, s.hasParent = true) ∨ 6 < run.length) ∧
      ((∀ s ∈ outer.head?, s.hasParent = false) →
        ((Selector.expand run).map Selector.css = (Selector.expand (outer ++ run)).map Selector.css ↔
          outer = [])) := by
  have hnormal : ∀ p ∈ placesOf context [] rule, ∀ s ∈ p.selectors, s.IsNormal :=
    fun p hp s hs => (Selector.isNormal_iff s).2 (hrule p hp s hs)
  constructor
  · rcases lays_layoutIn (le_refl rule.height) hnormal context.targets with
      ⟨hok, css, targets, hwork, hwrites⟩ | ⟨p, hp, e, he, hwork⟩
    · refine .inl ⟨hok, css, ?_, hwrites⟩
      rw [layoutRule, StateT.run, hwork]
      rfl
    · refine .inr ⟨p, hp, e, he, ?_⟩
      rw [layoutRule, StateT.run, hwork]
      rfl
  · intro outer run items hplace
    have hrun : run ≠ [] := run_ne_nil (le_refl rule.height) hplace
    have hchain : ∀ s ∈ outer ++ run, s.IsNormal := hnormal _ hplace
    constructor
    · obtain ⟨s, rest, rfl⟩ := List.exists_cons_of_ne_nil hrun
      rw [Selector.expand_error_iff fun t ht => hchain t (List.mem_append_right _ ht)]
      simp
    · intro hfirst
      constructor
      · intro heq
        by_contra houter
        exact Selector.css_expand_append_ne houter hrun hchain hfirst heq
      · rintro rfl
        rfl

/-- In `a { @media print { b { … } } }` the inner rule is written as `b`, and not as `a b`. -/
theorem layoutRule_media_between :
    ∃ css, layoutRule {} (.block (.style ⟨[[.word "a"]]⟩ 1) [.block (.media "print") [
        .block (.style ⟨[[.word "b"]]⟩ 2) [.importRule "x"]]]) = .ok css ∧
      Css.allHeaders css = [["a"], ["@media print"], ["b"]] ∧
      (Selector.expand [⟨[[.word "b"]]⟩]).map Selector.css ≠
        (Selector.expand [⟨[[.word "a"]]⟩, ⟨[[.word "b"]]⟩]).map Selector.css := by
  have hplaces : placesOf {} [] (.block (.style ⟨[[.word "a"]]⟩ 1) [.block (.media "print") [
        .block (.style ⟨[[.word "b"]]⟩ 2) [.importRule "x"]]]) =
      [.style [] [⟨[[.word "a"]]⟩] [.block (.media "print") [
          .block (.style ⟨[[.word "b"]]⟩ 2) [.importRule "x"]]],
        .atRule "@media print", .style [⟨[[.word "a"]]⟩] [⟨[[.word "b"]]⟩] [.importRule "x"]] := by
    have himport := fun outer url => @placesOf_leaf {} outer (.importRule url) rfl
    have hmedia := fun outer body => @placesOf_block {} outer (.media "print") body rfl
    simp [placesOf_style, hmedia, himport, rulesOf, rulesBelow, rulesOfNode, ownItems,
      Node.isStyleRule, headersOf]
  have hbuilt : ∀ p ∈ placesOf {} [] (.block (.style ⟨[[.word "a"]]⟩ 1) [.block (.media "print") [
      .block (.style ⟨[[.word "b"]]⟩ 2) [.importRule "x"]]]), ∀ s ∈ p.selectors,
      s.isEmpty = false ∧ ∃ alts, s = .ofAlternatives alts := by
    intro p hp s hs
    have hs : s = ⟨[[.word "a"]]⟩ ∨ s = ⟨[[.word "b"]]⟩ := by
      rw [hplaces] at hp
      simp only [List.mem_cons, List.not_mem_nil, or_false] at hp
      rcases hp with rfl | rfl | rfl <;> simp_all [BlockPlace.selectors]
    rcases hs with rfl | rfl
    · exact ⟨rfl, [[.word "a"]], rfl⟩
    · exact ⟨rfl, [[.word "b"]], rfl⟩
  have hexact := (layoutRule_starts_again_in_at_rules {} _ hbuilt).2
    [⟨[[.word "a"]]⟩] [⟨[[.word "b"]]⟩] [.importRule "x"] (by rw [hplaces]; simp)
  refine ⟨_, rfl, rfl, fun heq => ?_⟩
  have hnil := (hexact.2 fun s hs => by cases hs; rfl).1 heq
  cases hnil

/-- In `a { @media print { &.b { … } } }` the reference to the rule around fails, although there is a
rule to refer to. -/
theorem layoutRule_parent_in_media :
    layoutRule {} (.block (.style ⟨[[.word "a"]]⟩ 1) [.block (.media "print") [
        .block (.style ⟨[[.parent, .word ".b"]]⟩ 2) [.importRule "x"]]]) =
      .error (.parentOutsideRule "&.b") ∧
    Selector.expand [⟨[[.word "a"]]⟩, ⟨[[.parent, .word ".b"]]⟩] =
      .ok ⟨[[.word "a", .word ".b"]]⟩ :=
  ⟨rfl, rfl⟩

end Layout

end Stylesheet
