import Stylesheet.Compile
import Stylesheet.Proofs.Nesting.Evaluation
import Stylesheet.Proofs.Nesting.Flattening

/-!
# Compiling plain rules

A source of plain rules is read, evaluated, flattened and written, and its text is that of its flat
rules, whatever blanks the source is laid out with.

* `FlatText.css`, `render_css`: the block that a flat rule becomes, and its text.
* `layoutRule_of_isNode`: the blocks of a tree.
* `Page.ofTexts`: a page with some texts on it.
* `compile_layouts`: the text of a compiled source.
-/

namespace Stylesheet

namespace Nesting

/-! ## Layout -/

section Layout

variable {context : Context} {α β : Type}

theorem mapM_of_forall₂ {f : α → Layout β} {targets : List Browser} {as : List α} {bs : List β}
    (h : List.Forall₂ (fun a b => f a targets = .ok (b, targets)) as bs) :
    as.mapM f targets = .ok (bs, targets) := by
  induction h with
  | nil => rfl
  | @cons a b as bs hab _ ih =>
    rw [List.mapM_cons]
    show (f a targets >>= fun (b, s) => (as.mapM f >>= fun bs => pure (b :: bs)) s) = _
    rw [hab]
    show (as.mapM f targets >>= fun (bs, s) => (pure (b :: bs) : Layout (List β)) s) = _
    rw [ih]
    rfl

theorem copies_nil (d : Declaration) : copies context d [] = [] := by
  unfold copies
  split
  next info _ =>
    rw [PropertyInfo.patches, PropertyInfo.vendorsFrom]
    simp
  next => rfl

theorem needsCopies_nil (d : Declaration) : needsCopies context d [] = false := by
  rw [needsCopies]
  cases context.properties.get? d.name <;> simp [PropertyInfo.needsExpansion]

/-- The block that is written for a flat rule. -/
def FlatText.css (rule : FlatText) : Css :=
  .block rule.selector (rule.declarations.length == 1)
    (rule.declarations.map fun written => .declaration written.1 written.2)

theorem isCondensed_of_forall₂ {items : List Node} {declarations : List (String × String)}
    (h : List.Forall₂ IsDeclaration items declarations) :
    isCondensed context items [] = (declarations.length == 1) := by
  cases h with
  | nil => rfl
  | cons hitem hitems =>
    obtain ⟨d, rfl, -⟩ := hitem
    cases hitems with
    | nil => simp [isCondensed, needsCopies_nil]
    | cons _ _ => simp [isCondensed]

theorem layoutBlockBy_of_isText {flat : FlatRule} {rule : FlatText} (h : IsText flat rule)
    (n : Nat) :
    layoutBlockBy context (layoutIn context (n + 1)) flat.selector.css flat.items [] =
      .ok (rule.css, []) := by
  have hitems : flat.items.mapM (layoutIn context (n + 1)) [] =
      .ok (rule.declarations.map fun written => [.declaration written.1 written.2], []) := by
    refine mapM_of_forall₂ (List.forall₂_map_right_iff.2 (h.items.imp ?_))
    rintro _ written ⟨d, rfl, hname, hvalue⟩
    show Except.ok (layoutDeclaration context d [], []) = _
    rw [layoutDeclaration, copies_nil, hname, hvalue]
    rfl
  show (flat.items.mapM (layoutIn context (n + 1)) [] >>= fun (body, targets) =>
    .ok (Css.block flat.selector.css (isCondensed context flat.items []) body.flatten, targets)) = _
  rw [hitems, isCondensed_of_forall₂ h.items, h.selector]
  show Except.ok _ = Except.ok _
  rw [FlatText.css, ← List.flatMap_def, ← List.map_eq_flatMap]

theorem eq_nil_of_heightAll {nodes : List Node} (h : Node.heightAll nodes = 0) : nodes = [] := by
  cases nodes with
  | nil => rfl
  | cons node nodes =>
    have hheight : 0 < node.height := by cases node <;> simp [Node.height]
    rw [Node.heightAll] at h
    omega

theorem written_of_nil {t : Tree} (h : t.body.Nodes 1 []) : t.written = [] := by
  obtain ⟨selector, body⟩ := t
  cases h
  rfl

/-- A tree is laid out as the blocks of its flat rules that hold declarations. -/
theorem layoutRule_of_isNode (htargets : context.targets = []) {t : Tree} {node : Node}
    (h : t.IsNode node) (hdepth : t.depth ≤ 6) (hlists : t.lists ≤ 1) :
    layoutRule context node = .ok (t.written.map FlatText.css) := by
  obtain ⟨body, rfl, hbody⟩ := h
  obtain ⟨flat, hflat, htexts⟩ := exists_flattenRule hbody hdepth hlists
  have hblocks : flat.mapM (fun rule => layoutBlockBy context
      (layoutIn context (Node.heightAll body)) rule.selector.css rule.items) [] =
      .ok (t.written.map FlatText.css, []) := by
    refine mapM_of_forall₂ (List.forall₂_map_right_iff.2 ?_)
    -- Only a body without items has no height, and such a tree writes nothing.
    cases hheight : Node.heightAll body with
    | zero =>
      rw [eq_nil_of_heightAll hheight] at hbody
      rw [written_of_nil hbody] at htexts ⊢
      cases htexts
      exact .nil
    | succ n => exact htexts.imp fun flat rule hrule => layoutBlockBy_of_isText hrule n
  have hwork : layoutIn context (Node.heightAll body + 1)
      (.block (.style (selectorOf t.selector) 1) body) [] =
      .ok (t.written.map FlatText.css, []) := by
    show ((flattenRule (selectorOf t.selector) 1 body >>= fun flat => Except.ok (flat, [])) >>=
      fun (flat, targets) => flat.mapM (fun rule => layoutBlockBy context
        (layoutIn context (Node.heightAll body)) rule.selector.css rule.items) targets) = _
    rw [hflat]
    exact hblocks
  rw [layoutRule, htargets, Node.height, StateT.run, hwork]
  rfl

end Layout

/-! ## Texts -/

theorem render_css (rule : FlatText) : rule.css.render 0 = rule.text := by
  have hindent : Css.indent 0 = "" := rfl
  have hstep : Css.indent 1 = "  " := rfl
  obtain ⟨selector, declarations⟩ := rule
  -- One declaration is written on one line, any other number of them on lines of their own.
  match declarations with
  | [] => simp [FlatText.css, FlatText.text, Css.render, Css.renderEach_eq_map, hindent]
  | [(name, value)] =>
    simp [FlatText.css, FlatText.text, Css.render, Css.renderEach_eq_map, hindent, String.append_assoc]
  | first :: second :: more =>
    simp [FlatText.css, FlatText.text, Css.render, Css.renderEach_eq_map, hindent, hstep,
      String.append_assoc, Function.comp_def]

theorem text_ne_empty (rule : FlatText) : rule.text ≠ "" := by
  intro h
  have hlength := congrArg String.length h
  obtain ⟨selector, declarations⟩ := rule
  rw [FlatText.text] at hlength
  split at hlength <;> simp at hlength

/-- The texts of the flat rules of a tree that hold declarations. -/
def Tree.texts (t : Tree) : List String := t.written.map FlatText.text

theorem sheetText_eq (trees : List Tree) :
    sheetText trees = "\n".intercalate (trees.flatMap Tree.texts) := by
  rw [sheetText, List.filter_flatMap, List.map_flatMap]
  rfl

/-- A page with some texts on it. -/
def pageOf (texts : List String) : Page := ⟨"\n".intercalate texts, !texts.isEmpty⟩

theorem pageOf_add {done more : List String} (hmore : ∀ text ∈ more, text ≠ "") :
    (pageOf done).add ("\n".intercalate more) = pageOf (done ++ more) := by
  cases more with
  | nil => simp [Page.add]
  | cons text more =>
    have htext := hmore text List.mem_cons_self
    have hitem : ("\n".intercalate (text :: more)).isEmpty = false := by
      cases more <;> simp [htext]
    rw [Page.add, hitem]
    cases done with
    | nil => simp [pageOf]
    | cons first done =>
      rw [pageOf, pageOf, String.intercalate_append_of_ne_nil (by simp) (by simp)]
      rfl

theorem ne_empty_of_mem_texts {t : Tree} {text : String} (h : text ∈ t.texts) : text ≠ "" := by
  obtain ⟨rule, -, rfl⟩ := List.mem_map.1 h
  exact text_ne_empty rule

theorem renderAll_css (t : Tree) :
    Css.renderAll (t.written.map FlatText.css) = "\n".intercalate t.texts := by
  rw [Css.renderAll, Css.renderEach_eq_map, List.map_map, Tree.texts]
  congr 1
  exact List.map_congr_left fun rule _ => render_css rule

/-! ## Documents -/

section Documents

variable {context : Context} {w : Writer}

theorem gives_ofMetered {α : Type} {work : Metered α} {a : α} {s : Session}
    (h : Gives work w.session a s) : Gives (Writing.ofMetered work) w a { w with session := s } := by
  rw [Gives, Writing.ofMetered, h]

theorem gives_ruleText (htargets : context.targets = []) {t : Tree} {node : Node}
    (h : t.IsNode node) (hdepth : t.depth ≤ 6) (hlists : t.lists ≤ 1) (scope : Scope)
    (hsession : w.session.depth = 0)
    (hsize : w.session.nodes + t.body.size ≤ Limit.nodes.max) :
    Gives (ruleText context node scope) w ("\n".intercalate t.texts)
      { w with session := { w.session with nodes := w.session.nodes + t.body.size } } := by
  have hget : Gives (get : Writing Writer) w w w := rfl
  have heval : Gives (Writing.ofMetered ((environment context w).evalRule node scope)) w [node]
      { w with session := { w.session with nodes := w.session.nodes + t.body.size } } :=
    gives_ofMetered (gives_evalRule h scope hsession hsize)
  have hlayout : [node].mapM (layoutRule context) =
      .ok [t.written.map FlatText.css] := by
    rw [List.mapM_cons, layoutRule_of_isNode htargets h hdepth hlists]
    rfl
  refine hget.bind (heval.bind ?_)
  rw [hlayout]
  dsimp only
  rw [List.flatten_singleton, renderAll_css]
  exact gives_pure _ _

/-- The root items of a sheet of plain rules write the texts of the trees, one after the other. -/
theorem gives_rootNodesBy (htargets : context.targets = []) (resolver : Option Resolver)
    {load : String → List Node → Scope → Writing String} {enter : RootRun} {trees : List Tree}
    {nodes : List Node} (h : List.Forall₂ Tree.IsNode trees nodes)
    (hdepth : ∀ t ∈ trees, t.depth ≤ 6) (hlists : ∀ t ∈ trees, t.lists ≤ 1) (scope : Scope)
    (done : List String) (hsession : w.session.depth = 0)
    (hsize : w.session.nodes + (trees.map fun t => t.body.size).sum ≤ Limit.nodes.max) :
    ∃ w', Gives (rootNodesBy context resolver load enter nodes (scope, pageOf done)) w
      (scope, pageOf (done ++ trees.flatMap Tree.texts)) w' := by
  -- `done` holds the texts of the trees before; the session has counted their declarations.
  induction h generalizing done w with
  | nil =>
    rw [List.flatMap_nil, List.append_nil]
    exact ⟨w, gives_pure _ w⟩
  | @cons t node trees nodes hnode _ ih =>
    rw [List.forall_mem_cons] at hdepth hlists
    rw [List.map_cons, List.sum_cons, ← Nat.add_assoc] at hsize
    have htext := gives_ruleText htargets hnode hdepth.1 hlists.1 scope hsession (by omega)
    obtain ⟨body, rfl, -⟩ := hnode
    have hstep : Gives (rootNodeBy context resolver load enter
        (.block (.style (selectorOf t.selector) 1) body) (scope, pageOf done)) w
        (scope, pageOf (done ++ t.texts))
        { w with session := { w.session with nodes := w.session.nodes + t.body.size } } := by
      rw [rootNodeBy, ← pageOf_add fun text htext => ne_empty_of_mem_texts htext]
      exact htext.bind (gives_pure _ _)
    obtain ⟨w', hrest⟩ := ih
      (w := { w with session := { w.session with nodes := w.session.nodes + t.body.size } })
      hdepth.2 hlists.2 (done ++ t.texts) hsession hsize
    refine ⟨w', ?_⟩
    rw [rootNodesBy, List.flatMap_cons, ← List.append_assoc]
    exact hstep.bind hrest

theorem gives_writeDocument (htargets : context.targets = []) (resolver : Option Resolver)
    {trees : List Tree} {nodes : List Node} (h : List.Forall₂ Tree.IsNode trees nodes)
    (hdepth : ∀ t ∈ trees, t.depth ≤ 6) (hlists : ∀ t ∈ trees, t.lists ≤ 1)
    (hsize : (trees.map fun t => t.body.size).sum ≤ Limit.nodes.max) :
    ∃ w', Gives (writeDocument context resolver ⟨nodes⟩) {} (sheetText trees) w' := by
  have hcount : Gives (Writing.ofMetered (Metered.countImport "")) {} ()
      { session := { imports := 1 } } :=
    gives_ofMetered (Metered.gives_countImport "" (by decide))
  have hopen : Gives (openDocument "" nodes) {} ()
      { session := { imports := 1 }, mixins := Registry.registerAll .empty nodes } :=
    hcount.bind rfl
  obtain ⟨w', hroot⟩ := gives_rootNodesBy
    (w := { session := { imports := 1 }, mixins := Registry.registerAll .empty nodes })
    htargets resolver h hdepth hlists context.scope.child [] rfl (by simpa using hsize)
  refine ⟨w', ?_⟩
  rw [sheetText_eq]
  exact hopen.bind (hroot.bind (gives_pure _ w'))

end Documents

/-- Compiling plain rules, laid out with any blanks, gives their flat rules. -/
theorem compile_layouts (trees : List Tree) (source : String)
    (hsource : source.toList ∈ (trees.map Tree.layouts).prod) (hdepth : ∀ t ∈ trees, t.depth ≤ 6)
    (hlists : ∀ t ∈ trees, t.lists ≤ 1)
    (hsize : (trees.map fun t => t.body.size).sum ≤ 50000) :
    compile {} none source = .ok (sheetText trees) := by
  obtain ⟨nodes, hread, hnodes⟩ := exists_read hsource
  have htargets : ({} : Context).targets = [] := rfl
  obtain ⟨w, hwrite⟩ := gives_writeDocument htargets none hnodes hdepth hlists hsize
  have hcompile : Gives (Writing.source {} none source) {} (sheetText trees) w := by
    rw [Writing.source, hread]
    exact hwrite
  rw [compile, ExceptT.run, hcompile]

/-- A rule with a list nested in it, and a rule of two words nested in that one. -/
def menu : Tree where
  selector := ⟨⟨⟨"nav", by decide⟩, []⟩, []⟩
  body := .declaration ⟨"color", by decide⟩ ⟨⟨⟨"red", by decide⟩, []⟩, []⟩ <|
    .rule ⟨⟨⟨"ul", by decide⟩, []⟩, [⟨⟨".x", by decide⟩, []⟩]⟩
      (.rule ⟨⟨⟨"li", by decide⟩, [⟨"a", by decide⟩]⟩, []⟩
        (.declaration ⟨"margin", by decide⟩
          ⟨⟨⟨"a", by decide⟩, [⟨"b", by decide⟩]⟩, [⟨⟨"c", by decide⟩, []⟩]⟩ <|
        .declaration ⟨"width", by decide⟩ ⟨⟨⟨"auto", by decide⟩, []⟩, []⟩ .nil) <|
      .declaration ⟨"top", by decide⟩ ⟨⟨⟨"left", by decide⟩, []⟩, []⟩ .nil) .nil

/-- The innermost rule comes before the list around it, and a single declaration takes no lines of
its own. -/
theorem compile_menu :
    menu.depth = 3 ∧ menu.lists = 1 ∧
    compile {} none ("nav \x7b color: red; ul, .x \x7b " ++
        "li a \x7b margin: a b, c; width: auto; \x7dtop: left; \x7d\x7d") =
      .ok ("nav \x7b color: red; \x7d\nnav ul li a,\nnav .x li a \x7b\n  margin: a b, c;\n" ++
        "  width: auto;\n\x7d\nnav ul,\nnav .x \x7b top: left; \x7d") := by
  have hblank : [' '] ∈ blank := ⟨by simp, by simp [IsGap]⟩
  have hsource : menu.print [' '] ∈ ([menu].map Tree.layouts).prod := by
    rw [List.map_singleton, List.prod_singleton]
    exact menu.print_mem_layouts hblank
  refine ⟨rfl, rfl, ?_⟩
  exact compile_layouts [menu] _ hsource (by decide) (by decide) (by decide)

end Nesting

end Stylesheet
