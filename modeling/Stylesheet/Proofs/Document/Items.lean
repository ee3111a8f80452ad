import Stylesheet.Proofs.Css.Writing
import Stylesheet.Proofs.Scribe.Documents

/-!
# The items of a document

What the root of a document does can be told without a page: which rules are evaluated in which
scope, what is left of them, and which items are written. The page holds these items one after the
other.

* `RootItem`: an item that is written.
* `Root.Step`, `Root.Steps`, `Root.Repeats`: what one root item, some of them or a loop write.
* `steps_documentIn`: the text of a document is that of its items.
-/

namespace Stylesheet

/-- An item that the root of a document writes. -/
inductive RootItem where
  /-- A comment, or an import that is left to the browser. -/
  | text (text : String)
  /-- A rule: what is left of it, and its CSS. -/
  | rule (nodes : List Node) (css : List Css)

namespace RootItem

def written : RootItem → String
  | text t => t
  | rule _ css => Css.renderAll css

def nodes : RootItem → List Node
  | text _ => []
  | rule nodes _ => nodes

def css : RootItem → List Css
  | text _ => []
  | rule _ css => css

/-- The texts in an item besides its declarations. -/
def labels : RootItem → List String
  | text t => [t]
  | rule _ css => Css.allLabels css

theorem spells_written (item : RootItem) :
    Spells item.written (Css.allDeclarations item.css) item.labels := by
  cases item with
  | text t => exact .label t
  | rule nodes css => exact Css.spells_renderAll css

end RootItem

/-! ## What the root does -/

namespace Root

variable (context : Context) (imports : String → Scope → StateM Writer String)

mutual

/-- What a root item writes, from a scope and a writer to those after it. The text of an import is
left to `imports`. -/
inductive Step : Node → Scope → Writer → List RootItem → Scope → Writer → Prop
  | mixin (name : String) (params : List Parameter) (body : List Node) (scope : Scope)
      (w : Writer) : Step (.mixin name params body) scope w [] scope w
  | declaration (d : Declaration) (scope : Scope) (w : Writer) :
      Step (.declaration d) scope w [] scope w
  | assignment (a : Assignment) (scope : Scope) (w : Writer) :
      Step (.assignment a) scope w [] (scope.assign a) w
  | branch {condition : Value} {body otherwise : List Node} {scope scope' : Scope}
      {w w' : Writer} {chosen : Bool} {s : Session} {items : List RootItem}
      (hchosen : Gives ((environment context w).chooseBranch scope condition) w.session chosen s)
      (h : Steps (if chosen then body else otherwise) scope { w with session := s } items scope' w') :
      Step (.branch condition body otherwise) scope w items scope' w'
  | loop {counter : String} {first last : Value} {inclusive : Bool} {body : List Node}
      {scope : Scope} {w w' : Writer} {range : List Int} {s : Session} {items : List RootItem}
      (hrange : Gives ((environment context w).loopRange scope first last inclusive) w.session
        range s)
      (h : Repeats counter body range scope.child { w with session := s } items w') :
      Step (.loop counter first last inclusive body) scope w items scope w'
  | inclusion {i : Inclusion} {scope scope' : Scope} {w w' : Writer} {body : List Node}
      {s : Session} {items : List RootItem}
      (hbody : Gives (expandInclude (environment context w).layers scope i) w.session body s)
      (h : Steps body scope { w with session := s } items scope' w') :
      Step (.inclusion i) scope w items scope' w'
  | comment (text : String) (scope : Scope) (w : Writer) :
      Step (.comment text) scope w [.text (Stylesheet.comment text)] scope w
  | importRule {url text : String} {scope : Scope} {w w' : Writer}
      (h : imports url scope w = (text, w')) :
      Step (.importRule url) scope w [.text text] scope w'
  | rule {rule : Node} {scope : Scope} {w : Writer} {nodes : List Node} {css : List (List Css)}
      {s : Session} (hrule : rule.body?.isSome ∨ ∃ name prelude, rule = .statement name prelude)
      (heval : Gives ((environment context w).evalRule rule scope) w.session nodes s)
      (hcss : nodes.mapM (layoutRule context) = .ok css) :
      Step rule scope w [.rule nodes css.flatten] scope { w with session := s }

/-- What root items write one after the other. -/
inductive Steps : List Node → Scope → Writer → List RootItem → Scope → Writer → Prop
  | nil (scope : Scope) (w : Writer) : Steps [] scope w [] scope w
  | cons {node : Node} {nodes : List Node} {scope scope' scope'' : Scope} {w w' w'' : Writer}
      {items more : List RootItem} (hnode : Step node scope w items scope' w')
      (hnodes : Steps nodes scope' w' more scope'' w'') :
      Steps (node :: nodes) scope w (items ++ more) scope'' w''

/-- What the rounds of a loop write, all in one scope. -/
inductive Repeats : String → List Node → List Int → Scope → Writer → List RootItem → Writer → Prop
  | nil (counter : String) (body : List Node) (scope : Scope) (w : Writer) :
      Repeats counter body [] scope w [] w
  | cons {counter : String} {body : List Node} {i : Int} {range : List Int} {scope scope' : Scope}
      {w w' w'' : Writer} {items more : List RootItem}
      (hround : Steps body (scope.set counter (.number (Binary.ofInt i))) w items scope' w')
      (hrange : Repeats counter body range scope' w' more w'') :
      Repeats counter body (i :: range) scope w (items ++ more) w''

end

end Root

/-! ## Pages -/

/-- An item that is added to a page comes behind it, with or without a newline. -/
theorem Spells.add {p : Page} {item : String} {ds ds' : List (String × String)}
    {ls ls' : List String} (h : Spells p.text ds ls) (hitem : Spells item ds' ls') :
    Spells (p.add item).text (ds ++ ds') (ls ++ ls') := by
  unfold Page.add
  split
  next hempty =>
    rw [String.isEmpty_iff] at hempty
    have happend := h.append hitem
    rwa [hempty, String.append_empty] at happend
  next =>
    dsimp only
    split
    · exact (h.before_spacing .newline).append hitem
    · exact h.append hitem

/-- The page with some items added. -/
def Page.addItems (p : Page) (items : List RootItem) : Page :=
  p.addAll (items.map RootItem.written)

theorem Page.addItems_append (p : Page) (items more : List RootItem) :
    p.addItems (items ++ more) = (p.addItems items).addItems more := by
  rw [addItems, List.map_append, Page.addAll_append]
  rfl

/-- A page writes the declarations and labels of its items. -/
theorem Spells.addItems {p : Page} {ds : List (String × String)} {ls : List String}
    (h : Spells p.text ds ls) (items : List RootItem) :
    Spells (p.addItems items).text (ds ++ Css.allDeclarations (items.flatMap RootItem.css))
      (ls ++ items.flatMap RootItem.labels) := by
  induction items generalizing p ds ls with
  | nil =>
    simpa [Page.addItems, Page.addAll, Css.allDeclarations] using h
  | cons item items ih =>
    have hitems := ih (h.add item.spells_written)
    rw [List.append_assoc, List.append_assoc, ← Css.allDeclarations_append] at hitems
    exact hitems

theorem Gives.of_ofMetered {α : Type} {work : Metered α} {w w' : Writer} {a : α}
    (h : Gives (Writing.ofMetered work) w a w') :
    ∃ s, Gives work w.session a s ∧ w' = { w with session := s } := by
  have hwork : Writing.ofMetered work w =
      ((work w.session).1, { w with session := (work w.session).2 }) := rfl
  rw [Gives, hwork] at h
  refine ⟨(work w.session).2, ?_, (congrArg Prod.snd h).symm⟩
  exact congrArg (·, (work w.session).2) (congrArg Prod.fst h)

theorem Gives.of_get {α σ : Type} {f : σ → ExceptT CompileError (StateM σ) α} {s s' : σ} {a : α}
    (h : Gives (get >>= f) s a s') : Gives (f s) s a s' := h

theorem Gives.of_lift {α σ : Type} {x : StateM σ α} {s s' : σ} {a : α}
    (h : Gives (liftM x : ExceptT CompileError (StateM σ) α) s a s') : x s = (a, s') := by
  have hlift : (liftM x : ExceptT CompileError (StateM σ) α) s = (.ok (x s).1, (x s).2) := rfl
  rw [Gives, hlift] at h
  obtain ⟨hok, hs⟩ := Prod.mk.inj h
  exact Prod.ext (Except.ok.inj hok) hs

section Root

open Root

variable {context : Context} {resolver : Option Resolver}
  {load : String → List Node → Scope → Writing String} {enter : RootRun}

theorem gives_ruleText_ok {rule : Node} {scope : Scope} {w w' : Writer} {text : String}
    (h : Gives (ruleText context rule scope) w text w') :
    ∃ nodes css s, Gives ((environment context w).evalRule rule scope) w.session nodes s ∧
      nodes.mapM (layoutRule context) = .ok css ∧ text = Css.renderAll css.flatten ∧
      w' = { w with session := s } := by
  obtain ⟨nodes, u, hmetered, h⟩ := h.of_get.of_bind
  obtain ⟨s, heval, rfl⟩ := hmetered.of_ofMetered
  cases hcss : nodes.mapM (layoutRule context) with
  | error e =>
    rw [hcss] at h
    cases h
  | ok css =>
    rw [hcss] at h
    obtain ⟨rfl, rfl⟩ := h.of_pure
    exact ⟨nodes, css, s, heval, hcss, rfl, rfl⟩

variable (context resolver load) in
/-- What root items write, as a page shows it. -/
def StepsTo (nodes : List Node) (scope : Scope) (page : Page) (w : Writer) (after : Scope × Page)
    (w' : Writer) : Prop :=
  ∃ items, Steps context (importItem resolver load) nodes scope w items after.1 w' ∧
    after.2 = page.addItems items

/-- The rounds of a loop, each of which goes on with the page and the scope of the one before. -/
theorem repeats_foldlM {run : Scope × Page → Writing (Scope × Page)} {counter : String}
    {body : List Node}
    (hrun : ∀ {scope page w after w'}, Gives (run (scope, page)) w after w' →
      StepsTo context resolver load body scope page w after w')
    (range : List Int) {scope : Scope} {page : Page} {w w' : Writer} {after : Scope × Page}
    (h : Gives (range.foldlM (fun s i =>
      run (s.1.set counter (.number (Binary.ofInt i)), s.2)) (scope, page)) w after w') :
    ∃ items, Repeats context (importItem resolver load) counter body range scope w items w' ∧
      after.2 = page.addItems items := by
  induction range generalizing scope page w with
  | nil =>
    obtain ⟨rfl, rfl⟩ := h.of_pure
    exact ⟨[], .nil counter body scope _, rfl⟩
  | cons i range ih =>
    rw [List.foldlM_cons] at h
    obtain ⟨⟨inner, middle⟩, u, hround, h⟩ := h.of_bind
    obtain ⟨items, hitems, rfl⟩ := hrun hround
    obtain ⟨more, hmore, hpage⟩ := ih h
    exact ⟨items ++ more, .cons hitems hmore, by rw [hpage, Page.addItems_append]⟩

mutual

theorem step_rootNodeBy
    (henter : ∀ {body scope page w after w'}, Gives (enter body (scope, page)) w after w' →
      StepsTo context resolver load body scope page w after w') :
    (node : Node) → {scope : Scope} → {page : Page} → {w w' : Writer} → {after : Scope × Page} →
    Gives (rootNodeBy context resolver load enter node (scope, page)) w after w' →
    ∃ items, Step context (importItem resolver load) node scope w items after.1 w' ∧
      after.2 = page.addItems items
  | .mixin name params body, scope, _, w, _, _, h => by
    rw [rootNodeBy] at h
    obtain ⟨rfl, rfl⟩ := h.of_pure
    exact ⟨[], .mixin name params body scope _, rfl⟩
  | .declaration d, scope, _, w, _, _, h => by
    rw [rootNodeBy] at h
    obtain ⟨rfl, rfl⟩ := h.of_pure
    exact ⟨[], .declaration d scope _, rfl⟩
  | .assignment a, scope, _, w, _, _, h => by
    rw [rootNodeBy] at h
    obtain ⟨rfl, rfl⟩ := h.of_pure
    exact ⟨[], .assignment a scope _, rfl⟩
  | .branch condition body otherwise, scope, page, w, _, _, h => by
    rw [rootNodeBy] at h
    obtain ⟨chosen, u, hmetered, h⟩ := h.of_get.of_bind
    obtain ⟨s, hchosen, rfl⟩ := hmetered.of_ofMetered
    cases chosen with
    | true =>
      obtain ⟨items, hitems, hpage⟩ := steps_rootNodesBy henter body h
      exact ⟨items, .branch hchosen hitems, hpage⟩
    | false =>
      obtain ⟨items, hitems, hpage⟩ := steps_rootNodesBy henter otherwise h
      exact ⟨items, .branch hchosen hitems, hpage⟩
  | .loop counter first last inclusive body, scope, page, w, _, _, h => by
    rw [rootNodeBy] at h
    obtain ⟨range, u, hmetered, h⟩ := h.of_get.of_bind
    obtain ⟨s, hrange, rfl⟩ := hmetered.of_ofMetered
    obtain ⟨last, u, hloop, h⟩ := h.of_bind
    obtain ⟨rfl, rfl⟩ := h.of_pure
    obtain ⟨⟨inner, middle⟩, u, hfold, hloop⟩ := hloop.of_bind
    obtain ⟨rfl, rfl⟩ := hloop.of_pure
    obtain ⟨items, hitems, hpage⟩ :=
      repeats_foldlM (fun hrun => steps_rootNodesBy henter body hrun) range hfold
    exact ⟨items, .loop hrange hitems, hpage⟩
  | .inclusion i, scope, page, w, _, _, h => by
    rw [rootNodeBy] at h
    obtain ⟨body, u, hmetered, h⟩ := h.of_get.of_bind
    obtain ⟨s, hbody, rfl⟩ := hmetered.of_ofMetered
    obtain ⟨items, hitems, hpage⟩ := henter h
    exact ⟨items, .inclusion hbody hitems, hpage⟩
  | .comment text, scope, _, w, _, _, h => by
    rw [rootNodeBy] at h
    obtain ⟨rfl, rfl⟩ := h.of_pure
    exact ⟨[_], .comment text scope _, rfl⟩
  | .importRule url, scope, page, w, _, _, h => by
    rw [rootNodeBy] at h
    obtain ⟨text, u, himport, h⟩ := h.of_bind
    obtain ⟨rfl, rfl⟩ := h.of_pure
    exact ⟨[_], .importRule himport.of_lift, rfl⟩
  | .block head body, scope, page, w, _, _, h => by
    rw [rootNodeBy] at h
    obtain ⟨text, u, htext, h⟩ := h.of_bind
    obtain ⟨rfl, rfl⟩ := h.of_pure
    obtain ⟨nodes, css, s, heval, hcss, rfl, rfl⟩ := gives_ruleText_ok htext
    exact ⟨[_], .rule (.inl rfl) heval hcss, rfl⟩
  | .statement name prelude, scope, page, w, _, _, h => by
    rw [rootNodeBy] at h
    obtain ⟨text, u, htext, h⟩ := h.of_bind
    obtain ⟨rfl, rfl⟩ := h.of_pure
    obtain ⟨nodes, css, s, heval, hcss, rfl, rfl⟩ := gives_ruleText_ok htext
    exact ⟨[_], .rule (.inr ⟨name, prelude, rfl⟩) heval hcss, rfl⟩

theorem steps_rootNodesBy
    (henter : ∀ {body scope page w after w'}, Gives (enter body (scope, page)) w after w' →
      StepsTo context resolver load body scope page w after w') :
    (nodes : List Node) → {scope : Scope} → {page : Page} → {w w' : Writer} →
    {after : Scope × Page} →
    Gives (rootNodesBy context resolver load enter nodes (scope, page)) w after w' →
    StepsTo context resolver load nodes scope page w after w'
  | [], scope, _, w, _, _, h => by
    rw [rootNodesBy] at h
    obtain ⟨rfl, rfl⟩ := h.of_pure
    exact ⟨[], .nil scope _, rfl⟩
  | node :: nodes, scope, page, w, _, _, h => by
    rw [rootNodesBy] at h
    obtain ⟨⟨inner, middle⟩, u, hnode, h⟩ := h.of_bind
    obtain ⟨items, hitems, rfl⟩ := step_rootNodeBy henter node hnode
    obtain ⟨more, hmore, hpage⟩ := steps_rootNodesBy henter nodes h
    exact ⟨items ++ more, .cons hitems hmore, by rw [hpage, Page.addItems_append]⟩

end

theorem steps_rootNodesIn (k : Nat) {nodes : List Node} {scope : Scope} {page : Page}
    {w w' : Writer} {after : Scope × Page}
    (h : Gives (rootNodesIn context resolver load k nodes (scope, page)) w after w') :
    StepsTo context resolver load nodes scope page w after w' := by
  induction k generalizing nodes scope page w w' after with
  | zero => exact steps_rootNodesBy (fun h => by cases h) nodes h
  | succ k ih => exact steps_rootNodesBy ih nodes h

/-! ## Documents -/

theorem openDocument_gives {path : String} {nodes : List Node} {w w' : Writer}
    (h : Gives (openDocument path nodes) w () w') : w' = w.open nodes := by
  by_cases hlimit : w.session.imports < Limit.imports.max
  · rw [Gives, openDocument_ok hlimit path nodes] at h
    exact (Prod.mk.inj h).2.symm
  · obtain ⟨e, herror⟩ := openDocument_error path nodes
    rw [Gives, (herror w (Nat.le_of_not_lt hlimit)).2] at h
    cases h

theorem steps_documentIn {n : Nat} {path : String} {nodes : List Node} {scope : Scope}
    {w w' : Writer} {text : String}
    (h : Gives (documentIn context resolver (n + 1) path nodes scope) w text w') :
    ∃ items scope', Steps context (importItem resolver (documentIn context resolver n)) nodes scope
      (w.open nodes) items scope' w' ∧ text = (Page.addItems {} items).text := by
  obtain ⟨_, u, hopen, h⟩ := h.of_bind
  obtain rfl := openDocument_gives hopen
  obtain ⟨⟨scope', page⟩, v, hroot, h⟩ := h.of_bind
  obtain ⟨rfl, rfl⟩ := h.of_pure
  obtain ⟨items, hitems, rfl⟩ := steps_rootNodesIn _ hroot
  exact ⟨items, scope', hitems, rfl⟩

end Root

end Stylesheet
