import Stylesheet.Proofs.Css.Ancestors
import Stylesheet.Proofs.Evaluation.Rules
import Stylesheet.Proofs.Scribe.Drawing

/-!
# Declarations from rules to CSS

Flattening takes rules apart and changes their order, and copies for vendors are written besides. If
keyframes are written once only, each declaration of a rule is nevertheless written exactly once,
with its own copies.

* `Node.declared`, `Css.declarations`: the declarations of a rule, and those that are written.
* `perm_flattenRule`: flattening neither loses nor doubles a declaration.
* `Shows`: written declarations that stand for those of a rule.
* `shows_layoutRules`: what is written for rules.
-/

namespace Stylesheet

/-! ## Declarations -/

namespace Node

mutual

/-- The declarations that stand here or in nested blocks. -/
def declared : Node → List Declaration
  | .declaration d => [d]
  | .block _ body => allDeclared body
  | _ => []

def allDeclared : List Node → List Declaration
  | [] => []
  | n :: ns => declared n ++ allDeclared ns

end

mutual

theorem length_declared : (n : Node) → n.declared.length = n.declarations
  | .declaration _ => rfl
  | .block _ body => length_allDeclared body
  | .statement _ _ => rfl
  | .importRule _ => rfl
  | .assignment _ => rfl
  | .comment _ => rfl
  | .mixin _ _ _ => rfl
  | .inclusion _ => rfl
  | .branch _ _ _ => rfl
  | .loop _ _ _ _ _ => rfl

theorem length_allDeclared : (ns : List Node) → (allDeclared ns).length = allDeclarations ns
  | [] => rfl
  | n :: ns => by
    rw [allDeclared, allDeclarations, List.length_append, length_declared n, length_allDeclared ns]

end

theorem allDeclared_eq_flatMap (ns : List Node) : allDeclared ns = ns.flatMap declared := by
  induction ns with
  | nil => rfl
  | cons n ns ih => rw [allDeclared, List.flatMap_cons, ih]

end Node

namespace Css

mutual

/-- The declarations that are written here or in nested blocks: their names and values. -/
def declarations : Css → List (String × String)
  | .declaration name value => [(name, value)]
  | .statement _ => []
  | .block _ _ body => allDeclarations body

def allDeclarations : List Css → List (String × String)
  | [] => []
  | item :: items => declarations item ++ allDeclarations items

end

theorem allDeclarations_eq_flatMap (items : List Css) :
    allDeclarations items = items.flatMap declarations := by
  induction items with
  | nil => rfl
  | cons item items ih => rw [allDeclarations, List.flatMap_cons, ih]

theorem allDeclarations_append (items more : List Css) :
    allDeclarations (items ++ more) = allDeclarations items ++ allDeclarations more := by
  rw [allDeclarations_eq_flatMap, List.flatMap_append, ← allDeclarations_eq_flatMap,
    ← allDeclarations_eq_flatMap]

theorem allDeclarations_flatten (bodies : List (List Css)) :
    allDeclarations bodies.flatten = bodies.flatMap allDeclarations := by
  induction bodies with
  | nil => rfl
  | cons body bodies ih => rw [List.flatten_cons, allDeclarations_append, ih, List.flatMap_cons]

end Css

/-! ## Flattening -/

open Node (allDeclared)

/-- What the flat rules hold and what is left in the body make up the body. -/
theorem perm_flattenNodes {chain : List Selector} {nodes : List Node} {flat : List FlatRule}
    (h : flattenNodes chain nodes = .ok flat) :
    ((flat.flatMap fun rule => allDeclared rule.items) ++ allDeclared (ownItems nodes)).Perm
      (allDeclared nodes) := by
  induction nodes using body_induction generalizing chain flat with
  | nil =>
    cases h
    exact .refl _
  | style s depth body ns ihbody ihns =>
    obtain ⟨selector, nested, rest, hbody, hns, rfl⟩ := flattenNodes_style_ok h
    have hown : ownItems (.block (.style s depth) body :: ns) = ownItems ns := rfl
    rw [hown, allDeclared, Node.declared, List.flatMap_append, List.flatMap_append,
      List.flatMap_singleton, List.append_assoc]
    exact (ihbody hbody).append (ihns hns)
  | other n ns hn ih =>
    rw [flattenNodes_other chain hn] at h
    have hown : ownItems (n :: ns) = n :: ownItems ns := by
      rw [ownItems, List.filter_cons_of_pos (by simp [hn])]
      rfl
    rw [hown, allDeclared, allDeclared]
    exact (List.perm_append_comm_assoc _ _ _).trans ((ih h).append_left _)

theorem perm_flattenRule {s : Selector} {depth : Nat} {body : List Node} {flat : List FlatRule}
    (h : flattenRule s depth body = .ok flat) :
    (flat.flatMap fun rule => allDeclared rule.items).Perm (allDeclared body) := by
  obtain ⟨nested, hnested, rfl⟩ := flattenRule_ok h
  have hfilter (rules : List FlatRule) :
      ((rules.filter fun rule => !rule.items.isEmpty).flatMap fun rule => allDeclared rule.items) =
        rules.flatMap fun rule => allDeclared rule.items := by
    induction rules with
    | nil => rfl
    | cons rule rules ih =>
      rw [List.filter_cons, List.flatMap_cons, ← ih]
      cases hitems : rule.items with
      | nil => simp [allDeclared]
      | cons item items => simp [hitems]
  rw [hfilter, List.flatMap_cons]
  exact List.perm_append_comm.trans (perm_flattenNodes hnested)

/-! ## Written declarations -/

/-- A declaration as it is written. -/
def Declaration.written (d : Declaration) : String × String := (d.name, d.value.css)

/-- The copies of a declaration as they are written. -/
def writtenCopies (context : Context) (d : Declaration) (targets : List Browser) :
    List (String × String) :=
  (copies context d targets).map fun p => (p.name, p.value.css)

variable {context : Context}

theorem allDeclarations_layoutDeclaration (d : Declaration) (targets : List Browser) :
    Css.allDeclarations (layoutDeclaration context d targets) =
      writtenCopies context d targets ++ [d.written] := by
  rw [layoutDeclaration, Css.allDeclarations_append, Css.allDeclarations_eq_flatMap,
    List.flatMap_map, writtenCopies, List.map_eq_flatMap]
  rfl

theorem exists_vendor_of_mem_writtenCopies {d : Declaration} {targets : List Browser}
    {c : String × String} (h : c ∈ writtenCopies context d targets) :
    ∃ vendor : Vendor, c.1 = vendor.mark ++ d.name := by
  obtain ⟨p, hp, rfl⟩ := List.mem_map.1 h
  unfold copies at hp
  split at hp
  · rename_i info hinfo
    unfold PropertyInfo.patches at hp
    split at hp
    · obtain ⟨vendor, hvendor, rfl⟩ := List.mem_map.1 hp
      exact ⟨vendor, rfl⟩
    · cases hp
  · cases hp

/-- Inside of keyframes there are no targets. -/
def IsTargets (context : Context) (targets : List Browser) : Prop :=
  targets = context.targets ∨ targets = []

variable (context) in
/-- Each of the declarations is written once, with its copies for some targets. -/
def Shows (ds : List Declaration) (written : List (String × String)) : Prop :=
  ∃ marked : List (Declaration × List Browser), (marked.map Prod.fst).Perm ds ∧
    (∀ m ∈ marked, IsTargets context m.2) ∧
    written.Perm (marked.flatMap fun m => writtenCopies context m.1 m.2 ++ [m.1.written])

namespace Shows

variable {ds ds' : List Declaration} {written written' : List (String × String)}

theorem nil : Shows context [] [] := ⟨[], .refl _, by simp, .refl _⟩

theorem single {d : Declaration} {targets : List Browser} (h : IsTargets context targets) :
    Shows context [d] (writtenCopies context d targets ++ [d.written]) :=
  ⟨[(d, targets)], .refl _, by simpa using h, by simp⟩

theorem append (h : Shows context ds written) (h' : Shows context ds' written') :
    Shows context (ds ++ ds') (written ++ written') := by
  obtain ⟨marked, hds, htargets, hwritten⟩ := h
  obtain ⟨marked', hds', htargets', hwritten'⟩ := h'
  refine ⟨marked ++ marked', ?_, List.forall_mem_append.2 ⟨htargets, htargets'⟩, ?_⟩
  · rw [List.map_append]
    exact hds.append hds'
  · rw [List.flatMap_append]
    exact hwritten.append hwritten'

theorem perm (h : Shows context ds written) (hperm : ds.Perm ds') : Shows context ds' written := by
  obtain ⟨marked, hds, htargets, hwritten⟩ := h
  exact ⟨marked, hds.trans hperm, htargets, hwritten⟩

/-- The declarations themselves, and the copies of each. -/
theorem standard (h : Shows context ds written) :
    ∃ marked : List (Declaration × List Browser), (marked.map Prod.fst).Perm ds ∧
      (∀ m ∈ marked, m.2 = context.targets ∨ m.2 = []) ∧
      written.Perm (ds.map Declaration.written ++
        marked.flatMap fun m => writtenCopies context m.1 m.2) := by
  obtain ⟨marked, hds, htargets, hwritten⟩ := h
  refine ⟨marked, hds, htargets, hwritten.trans ?_⟩
  have hstandard : (marked.flatMap fun m => [m.1.written]).Perm (ds.map Declaration.written) := by
    have hmap : (marked.flatMap fun m => [m.1.written]) =
        (marked.map Prod.fst).map Declaration.written := by
      rw [← List.map_eq_flatMap, List.map_map]
      rfl
    rw [hmap]
    exact hds.map _
  have hsplit := List.flatMap_append_perm marked (fun m => writtenCopies context m.1 m.2)
    fun m => [m.1.written]
  exact hsplit.symm.trans (List.perm_append_comm.trans (hstandard.append_right _))

end Shows

/-! ## Layout -/

theorem Layout.ok_of_bind {α β : Type} {work : Layout α} {next : α → Layout β}
    {targets left : List Browser} {b : β} (h : (work >>= next) targets = .ok (b, left)) :
    ∃ a mid, work targets = .ok (a, mid) ∧ next a mid = .ok (b, left) := by
  have hbind : (work >>= next) targets = (work targets >>= fun x => next x.1 x.2) := rfl
  rw [hbind] at h
  cases hwork : work targets with
  | error e =>
    rw [hwork] at h
    cases h
  | ok x =>
    rw [hwork] at h
    exact ⟨x.1, x.2, rfl, h⟩

variable (context) in
/-- Work that writes each of the declarations once, as far as `view` shows. -/
def WritesOnce {α : Type} (ds : List Declaration) (view : α → List (String × String))
    (work : Layout α) : Prop :=
  ∀ targets a left, IsTargets context targets → work targets = .ok (a, left) →
    IsTargets context left ∧ Shows context ds (view a)

namespace WritesOnce

variable {α β ι : Type} {ds : List Declaration} {view : α → List (String × String)}
  {view' : β → List (String × String)} {work : Layout α}

theorem pure {a : α} (hview : view a = []) : WritesOnce context [] view (pure a) := by
  intro targets b left htargets h
  cases h
  rw [hview]
  exact ⟨htargets, .nil⟩

theorem map {f : α → β} (h : WritesOnce context ds view work) (hview : ∀ a, view' (f a) = view a) :
    WritesOnce context ds view' (do return f (← work)) := by
  intro targets b left htargets hb
  obtain ⟨a, mid, ha, hb⟩ := Layout.ok_of_bind hb
  cases hb
  rw [hview]
  exact h targets a _ htargets ha

theorem perm {ds' : List Declaration} (h : WritesOnce context ds view work) (hperm : ds.Perm ds') :
    WritesOnce context ds' view work := by
  intro targets a left htargets ha
  obtain ⟨hleft, hshows⟩ := h targets a left htargets ha
  exact ⟨hleft, hshows.perm hperm⟩

theorem mapM {g : ι → List Declaration} {work : ι → Layout α} {items : List ι}
    (h : ∀ i ∈ items, WritesOnce context (g i) view (work i)) :
    WritesOnce context (items.flatMap g) (fun as => as.flatMap view) (items.mapM work) := by
  induction items with
  | nil => exact pure rfl
  | cons i items ih =>
    intro targets out left htargets hout
    rw [List.mapM_cons] at hout
    obtain ⟨a, mid, ha, hout⟩ := Layout.ok_of_bind hout
    obtain ⟨as, mid', has, hout⟩ := Layout.ok_of_bind hout
    cases hout
    obtain ⟨hmid, hshows⟩ := h i List.mem_cons_self targets a mid htargets ha
    obtain ⟨hleft, hshows'⟩ := ih (fun j hj => h j (List.mem_cons_of_mem i hj)) mid as _ hmid has
    exact ⟨hleft, hshows.append hshows'⟩

theorem block {layout : Node → Layout (List Css)} {items : List Node}
    (h : ∀ item ∈ items, WritesOnce context item.declared Css.allDeclarations (layout item))
    (header : List String) :
    WritesOnce context (allDeclared items) Css.declarations
      (layoutBlockBy context layout header items) := by
  intro targets css left htargets hcss
  obtain ⟨_, _, hget, hcss⟩ := Layout.ok_of_bind hcss
  cases hget
  obtain ⟨bodies, mid, hbodies, hcss⟩ := Layout.ok_of_bind hcss
  cases hcss
  obtain ⟨hleft, hshows⟩ := mapM h targets bodies _ htargets hbodies
  refine ⟨hleft, ?_⟩
  rw [Css.declarations, Css.allDeclarations_flatten, Node.allDeclared_eq_flatMap]
  exact hshows

/-- Work for no targets, as for keyframes. -/
theorem withTargets_nil (h : WritesOnce context ds view work) :
    WritesOnce context ds view (withTargets context [] work) := by
  intro targets a left _ ha
  obtain ⟨_, _, hset, ha⟩ := Layout.ok_of_bind ha
  cases hset
  obtain ⟨b, mid, hb, ha⟩ := Layout.ok_of_bind ha
  obtain ⟨_, _, hset, ha⟩ := Layout.ok_of_bind ha
  cases hset
  cases ha
  exact ⟨.inl rfl, (h [] _ mid (.inr rfl) hb).2⟩

theorem keyframes {layout : Node → Layout (List Css)} {items : List Node}
    (hlegacy : legacyTargets context.targets = [])
    (h : ∀ item ∈ items, WritesOnce context item.declared Css.allDeclarations (layout item))
    (name : String) :
    WritesOnce context (allDeclared items) Css.allDeclarations
      (layoutKeyframesBy context layout name items) := by
  intro targets css left htargets hcss
  rw [layoutKeyframesBy, hlegacy, List.mapM_nil] at hcss
  obtain ⟨_, _, hnone, hcss⟩ := Layout.ok_of_bind hcss
  cases hnone
  obtain ⟨standard, mid, hstandard, hcss⟩ := Layout.ok_of_bind hcss
  cases hcss
  obtain ⟨hleft, hshows⟩ := (block h _).withTargets_nil targets standard _ htargets hstandard
  refine ⟨hleft, ?_⟩
  rw [List.nil_append, Css.allDeclarations, Css.allDeclarations, List.append_nil]
  exact hshows

end WritesOnce

theorem writesOnce_layoutIn (hlegacy : legacyTargets context.targets = []) {k : Nat} {node : Node}
    (hheight : node.height ≤ k) :
    WritesOnce context node.declared Css.allDeclarations (layoutIn context k node) := by
  -- As for drawing, the induction is on the height, since flat rules are no parts of their rule.
  induction k generalizing node with
  | zero => cases node <;> cases hheight
  | succ k ih =>
    cases node with
    | block head body =>
      rw [Node.height] at hheight
      have hitems : ∀ item ∈ body,
          WritesOnce context item.declared Css.allDeclarations (layoutIn context k item) := by
        intro item hitem
        have hlow := Node.height_le_heightAll hitem
        exact ih (by omega)
      have hsingle (header : List String) :
          WritesOnce context (allDeclared body) Css.allDeclarations (do
            return [← layoutBlockBy context (layoutIn context k) header body]) :=
        (WritesOnce.block hitems header).map fun css => List.append_nil _
      cases head with
      | style s depth =>
        intro targets css left htargets hcss
        obtain ⟨flat, mid, hflat, hlaid⟩ := Layout.ok_of_bind hcss
        have hrule : flattenRule s depth body = .ok flat ∧ mid = targets := by
          cases hresult : flattenRule s depth body with
          | error e =>
            rw [hresult] at hflat
            cases hflat
          | ok rules =>
            rw [hresult] at hflat
            cases hflat
            exact ⟨rfl, rfl⟩
        obtain ⟨hrule, rfl⟩ := hrule
        have hrules : WritesOnce context (flat.flatMap fun rule => allDeclared rule.items)
            (fun items => items.flatMap Css.declarations)
            (flat.mapM fun rule =>
              layoutBlockBy context (layoutIn context k) rule.selector.css rule.items) := by
          refine WritesOnce.mapM fun rule hmem => WritesOnce.block (fun item hitem => ih ?_) _
          have hlow := height_le_of_mem_flattenRule hrule rule hmem item hitem
          omega
        rw [Css.allDeclarations_eq_flatMap]
        exact (hrules.perm (perm_flattenRule hrule)) mid css left htargets hlaid
      | media query => exact hsingle _
      | fontFace => exact hsingle _
      | keyframes name => exact WritesOnce.keyframes hlegacy hitems name
      | atRule name prelude => exact hsingle _
    | declaration d =>
      intro targets css left htargets hcss
      obtain ⟨_, _, hget, hcss⟩ := Layout.ok_of_bind hcss
      cases hget
      cases hcss
      rw [allDeclarations_layoutDeclaration]
      exact ⟨htargets, .single htargets⟩
    | _ => exact .pure rfl

/-- The rules of a list, each written for the targets of the context. -/
theorem shows_layoutRules (hlegacy : legacyTargets context.targets = []) {rules : List Node}
    {css : List (List Css)} (h : rules.mapM (layoutRule context) = .ok css) :
    Shows context (allDeclared rules) (Css.allDeclarations css.flatten) := by
  induction rules generalizing css with
  | nil =>
    cases h
    exact .nil
  | cons rule rules ih =>
    rw [List.mapM_cons] at h
    cases hrule : layoutRule context rule with
    | error e =>
      rw [hrule] at h
      cases h
    | ok first =>
      cases hrest : rules.mapM (layoutRule context) with
      | error e =>
        rw [hrule, hrest] at h
        cases h
      | ok rest =>
        rw [hrule, hrest] at h
        cases h
        rw [List.flatten_cons, Css.allDeclarations_append, allDeclared]
        refine Shows.append ?_ (ih hrest)
        unfold layoutRule at hrule
        cases hlayout : (layoutIn context rule.height rule).run context.targets with
        | error e =>
          rw [hlayout] at hrule
          cases hrule
        | ok x =>
          rw [hlayout] at hrule
          cases hrule
          exact (writesOnce_layoutIn hlegacy (le_refl _) _ _ _ (.inl rfl) hlayout).2

end Stylesheet
