import Stylesheet.Proofs.Scribe.Items

/-!
# Documents side by side

What is written never comes back: neither the counters nor the mixins, the scope or an error hang on
the text of an item. So if the items of two runs can be told apart by their texts only, the runs go
the same way, and their pages differ item by item.

* `Writing.Alike`: work that goes the same way, with results that are related.
* `WritesAlike`: root items with related texts.
* `ItemsAlike`: what has to be known of rules and imports.
* `alike_rootNodesIn`, `alike_documentIn`: what follows for root items and documents.
-/

namespace Stylesheet

/-! ## Runs -/

/-- Work that leaves one writer, and fails with one error or gives related results. -/
def Writing.Alike {α : Type} (R : α → α → Prop) (work work' : Writing α) (w : Writer) : Prop :=
  ∃ w', (∃ e, work w = (.error e, w') ∧ work' w = (.error e, w')) ∨
    ∃ a a', work w = (.ok a, w') ∧ work' w = (.ok a', w') ∧ R a a'

theorem Writing.Alike.refl {α : Type} {R : α → α → Prop} (hR : ∀ a, R a a) (work : Writing α)
    (w : Writer) : Writing.Alike R work work w := by
  rcases hwork : work w with ⟨o, w'⟩
  cases o with
  | error e => exact ⟨w', .inl ⟨e, hwork, hwork⟩⟩
  | ok a => exact ⟨w', .inr ⟨a, a, hwork, hwork, hR a⟩⟩

/-- Work that cannot fail. -/
theorem Writing.Alike.lift {α : Type} {R : α → α → Prop} {item item' : StateM Writer α}
    {w w' : Writer} {a a' : α} (h : item w = (a, w')) (h' : item' w = (a', w')) (hR : R a a') :
    Writing.Alike R (liftM item) (liftM item') w := by
  refine ⟨w', .inr ⟨a, a', ?_, ?_, hR⟩⟩
  · show (Except.ok (item w).1, (item w).2) = _
    rw [h]
  · show (Except.ok (item' w).1, (item' w).2) = _
    rw [h']

/-- Root items that are added to a page, and whose texts are related one by one. -/
def WritesAlike (R : String → String → Prop) {α : Type} (run run' : Page → Writing (α × Page))
    (w : Writer) : Prop :=
  ∃ (o : Except CompileError α) (items items' : List String) (w' : Writer),
    List.Forall₂ R items items' ∧
    (∀ page, run page w = (o.map (·, page.addAll items), w')) ∧
    ∀ page, run' page w = (o.map (·, page.addAll items'), w')

namespace WritesAlike

variable {R : String → String → Prop} {α β ι : Type} {run run' : Page → Writing (α × Page)}
  {w : Writer}

theorem pure (a : α) (w : Writer) :
    WritesAlike R (fun page => Pure.pure (a, page)) (fun page => Pure.pure (a, page)) w :=
  ⟨.ok a, [], [], w, .nil, fun _ => rfl, fun _ => rfl⟩

theorem error (e : CompileError) (w : Writer) :
    WritesAlike R (α := α) (fun _ => throw e) (fun _ => throw e) w :=
  ⟨.error e, [], [], w, .nil, fun _ => rfl, fun _ => rfl⟩

theorem bind {next next' : α → Page → Writing (β × Page)} (h : WritesAlike R run run' w)
    (hnext : ∀ a w, WritesAlike R (next a) (next' a) w) :
    WritesAlike R (fun page => run page >>= fun p => next p.1 p.2)
      (fun page => run' page >>= fun p => next' p.1 p.2) w := by
  obtain ⟨o, items, items', w', hitems, hrun, hrun'⟩ := h
  cases o with
  | error e =>
    exact ⟨.error e, items, items', w', hitems, fun page => work_bind_error (hrun page),
      fun page => work_bind_error (hrun' page)⟩
  | ok a =>
    obtain ⟨o, more, more', w'', hmore, hnext, hnext'⟩ := hnext a w'
    refine ⟨o, items ++ more, items' ++ more', w'', List.rel_append hitems hmore, fun page => ?_,
      fun page => ?_⟩
    · rw [Page.addAll_append]
      exact (work_bind_ok (hrun page)).trans (hnext _)
    · rw [Page.addAll_append]
      exact (work_bind_ok (hrun' page)).trans (hnext' _)

/-- Work that both runs begin with, from the writer that they have in common. -/
theorem eval {work : Writer → Metered α} {next next' : α → Page → Writing (β × Page)}
    (h : ∀ a w, WritesAlike R (next a) (next' a) w) (w : Writer) :
    WritesAlike R
      (fun page => MonadState.get >>= fun w => Writing.ofMetered (work w) >>= fun a => next a page)
      (fun page => MonadState.get >>= fun w => Writing.ofMetered (work w) >>= fun a => next' a page)
      w := by
  rcases hwork : Writing.ofMetered (work w) w with ⟨o, w'⟩
  cases o with
  | error e =>
    exact ⟨.error e, [], [], w', .nil,
      fun _ => (work_bind_ok rfl).trans (work_bind_error hwork),
      fun _ => (work_bind_ok rfl).trans (work_bind_error hwork)⟩
  | ok a =>
    obtain ⟨o, items, items', w'', hitems, hnext, hnext'⟩ := h a w'
    exact ⟨o, items, items', w'', hitems,
      fun page => (work_bind_ok rfl).trans ((work_bind_ok hwork).trans (hnext page)),
      fun page => (work_bind_ok rfl).trans ((work_bind_ok hwork).trans (hnext' page))⟩

theorem foldlM {step step' : α → ι → Page → Writing (α × Page)}
    (h : ∀ a i w, WritesAlike R (step a i) (step' a i) w) (is : List ι) (a : α) (w : Writer) :
    WritesAlike R (fun page => is.foldlM (fun p i => step p.1 i p.2) (a, page))
      (fun page => is.foldlM (fun p i => step' p.1 i p.2) (a, page)) w := by
  induction is generalizing a w with
  | nil => exact pure a w
  | cons i is ih =>
    simp only [List.foldlM_cons]
    exact (h a i w).bind ih

theorem item {text text' : Writing String} (h : Writing.Alike R text text' w) (a : α) :
    WritesAlike R (fun page => text >>= fun item => Pure.pure (a, page.add item))
      (fun page => text' >>= fun item => Pure.pure (a, page.add item)) w := by
  obtain ⟨w', ⟨e, hfails, hfails'⟩ | ⟨item, item', htext, htext', hR⟩⟩ := h
  · exact ⟨.error e, [], [], w', .nil, fun _ => work_bind_error hfails,
      fun _ => work_bind_error hfails'⟩
  · exact ⟨.ok a, [item], [item'], w', .cons hR .nil, fun _ => work_bind_ok htext,
      fun _ => work_bind_ok htext'⟩

end WritesAlike

/-! ## Items -/

/-- Two ways of writing items that evaluate alike, and write related texts for the same rules and
imports. -/
structure ItemsAlike (R : String → String → Prop) (context context' : Context)
    (resolver resolver' : Option Resolver)
    (load load' : String → List Node → Scope → Writing String) : Prop where
  environment_eq (w : Writer) : environment context' w = environment context w
  comment (text : String) : R (comment text) (comment text)
  rule (rule : Node) (scope : Scope) (w : Writer) :
    Writing.Alike R (ruleText context rule scope) (ruleText context' rule scope) w
  imported (url : String) (scope : Scope) (w : Writer) :
    Writing.Alike R (liftM (importItem resolver load url scope))
      (liftM (importItem resolver' load' url scope)) w

section Items

variable {R D : String → String → Prop} {context context' : Context}
  {resolver resolver' : Option Resolver} {load load' : String → List Node → Scope → Writing String}
  {enter enter' : RootRun}

/-- Imports of what both resolvers find at a path. -/
theorem alike_importItem_of_asks (hrefl : ∀ text, R text text)
    (hdocument : ∀ path text text', D text text' →
      R (comment path ++ onNewLine text) (comment path ++ onNewLine text'))
    (hload : ∀ path nodes scope w,
      Writing.Alike D (load path nodes scope) (load' path nodes scope) w)
    {url path : String} {found : Option String} (hasks : Asks resolver url path found)
    (hasks' : Asks resolver' url path found) (scope : Scope) (w : Writer) :
    Writing.Alike R (liftM (importItem resolver load url scope))
      (liftM (importItem resolver' load' url scope)) w := by
  cases found with
  | none => exact .lift (importItem_notFound hasks) (importItem_notFound hasks') (hrefl _)
  | some source =>
    by_cases hsource : path.endsWith ("." ++ sourceExtension) = true
    · have hread : ∃ o o' w', readDocument load path source scope w = (o, w') ∧
          readDocument load' path source scope w = (o', w') ∧
          R (comment path ++ importedOutcome path o) (comment path ++ importedOutcome path o') := by
        unfold readDocument
        cases Sheet.read source with
        | error e => exact ⟨_, _, _, rfl, rfl, hrefl _⟩
        | ok sheet =>
          obtain ⟨w', ⟨e, h, h'⟩ | ⟨text, text', h, h', hD⟩⟩ := hload path sheet.nodes scope.child w
          · exact ⟨_, _, w', h, h', hrefl _⟩
          · exact ⟨_, _, w', h, h', hdocument path _ _ hD⟩
      obtain ⟨o, o', w', h, h', hR⟩ := hread
      exact .lift (importItem_document hasks hsource h) (importItem_document hasks' hsource h') hR
    · exact .lift (importItem_plain hasks hsource) (importItem_plain hasks' hsource) (hrefl _)

theorem alike_importItem_of_unasked (hrefl : ∀ text, R text text) {url : String}
    (h : Unasked resolver url) (h' : Unasked resolver' url) (scope : Scope) (w : Writer) :
    Writing.Alike R (liftM (importItem resolver load url scope))
      (liftM (importItem resolver' load' url scope)) w := by
  rw [importItem_unasked h, importItem_unasked h']
  exact .lift rfl rfl (hrefl _)

mutual

theorem alike_rootNodeBy (h : ItemsAlike R context context' resolver resolver' load load')
    (henter : ∀ body scope w, WritesAlike R (fun page => enter body (scope, page))
      (fun page => enter' body (scope, page)) w) :
    (node : Node) → (scope : Scope) → (w : Writer) →
    WritesAlike R (fun page => rootNodeBy context resolver load enter node (scope, page))
      (fun page => rootNodeBy context' resolver' load' enter' node (scope, page)) w
  | .mixin _ _ _, scope, w => by
    simp only [rootNodeBy]
    exact .pure scope w
  | .declaration _, scope, w => by
    simp only [rootNodeBy]
    exact .pure scope w
  | .assignment a, scope, w => by
    simp only [rootNodeBy]
    exact .pure _ w
  | .branch condition body otherwise, scope, w => by
    simp only [rootNodeBy, h.environment_eq]
    refine WritesAlike.eval (fun chosen w => ?_) w
    cases chosen with
    | true => exact alike_rootNodesBy h henter body scope w
    | false => exact alike_rootNodesBy h henter otherwise scope w
  | .loop counter first last inclusive body, scope, w => by
    simp only [rootNodeBy, runRootLoop, h.environment_eq]
    refine WritesAlike.eval (fun range w => ?_) w
    have hrounds := WritesAlike.foldlM (fun inner i w => alike_rootNodesBy h henter body
      (inner.set counter (.number (Binary.ofInt i))) w) range scope.child w
    simp only [bind_assoc, pure_bind]
    exact hrounds.bind fun _ w => .pure scope w
  | .inclusion i, scope, w => by
    simp only [rootNodeBy, h.environment_eq]
    exact WritesAlike.eval (fun body w => henter body scope w) w
  | .comment text, scope, w => by
    simp only [rootNodeBy]
    exact ⟨.ok scope, [comment text], [comment text], w, .cons (h.comment text) .nil, fun _ => rfl,
      fun _ => rfl⟩
  | .importRule url, scope, w => by
    simp only [rootNodeBy]
    exact .item (h.imported url scope w) scope
  | .block head body, scope, w => by
    simp only [rootNodeBy]
    exact .item (h.rule _ scope w) scope
  | .statement name prelude, scope, w => by
    simp only [rootNodeBy]
    exact .item (h.rule _ scope w) scope

theorem alike_rootNodesBy (h : ItemsAlike R context context' resolver resolver' load load')
    (henter : ∀ body scope w, WritesAlike R (fun page => enter body (scope, page))
      (fun page => enter' body (scope, page)) w) :
    (nodes : List Node) → (scope : Scope) → (w : Writer) →
    WritesAlike R (fun page => rootNodesBy context resolver load enter nodes (scope, page))
      (fun page => rootNodesBy context' resolver' load' enter' nodes (scope, page)) w
  | [], scope, w => by
    simp only [rootNodesBy]
    exact .pure scope w
  | node :: nodes, scope, w => by
    simp only [rootNodesBy]
    exact (alike_rootNodeBy h henter node scope w).bind fun scope w =>
      alike_rootNodesBy h henter nodes scope w

end

theorem alike_rootNodesIn (h : ItemsAlike R context context' resolver resolver' load load') (k : Nat)
    (nodes : List Node) (scope : Scope) (w : Writer) :
    WritesAlike R (fun page => rootNodesIn context resolver load k nodes (scope, page))
      (fun page => rootNodesIn context' resolver' load' k nodes (scope, page)) w := by
  induction k generalizing nodes scope w with
  | zero => exact alike_rootNodesBy h (fun _ _ w => .error _ w) nodes scope w
  | succ k ih => exact alike_rootNodesBy h ih nodes scope w

/-- Whole documents, if their items are alike as soon as the documents that they import are. -/
theorem alike_documentIn
    (hitems : ∀ load load', (∀ path nodes scope w,
      Writing.Alike D (load path nodes scope) (load' path nodes scope) w) →
        ItemsAlike R context context' resolver resolver' load load')
    (hpages : ∀ items items', List.Forall₂ R items items' →
      D (Page.addAll {} items).text (Page.addAll {} items').text)
    (n : Nat) (path : String) (nodes : List Node) (scope : Scope) (w : Writer) :
    Writing.Alike D (documentIn context resolver n path nodes scope)
      (documentIn context' resolver' n path nodes scope) w := by
  rcases hopen : openDocument path nodes w with ⟨o, w₁⟩
  -- On the room for imports, as documents are written.
  induction n generalizing path nodes scope w o w₁ with
  | zero =>
    cases o with
    | error e => exact ⟨w₁, .inl ⟨e, work_bind_error hopen, work_bind_error hopen⟩⟩
    | ok _ => exact ⟨w₁, .inl ⟨_, work_bind_ok hopen, work_bind_ok hopen⟩⟩
  | succ n ih =>
    cases o with
    | error e => exact ⟨w₁, .inl ⟨e, work_bind_error hopen, work_bind_error hopen⟩⟩
    | ok _ =>
      have hload := hitems (documentIn context resolver n) (documentIn context' resolver' n)
        fun path nodes scope w => ih path nodes scope w _ _ rfl
      obtain ⟨o, items, items', w', hR, hroot, hroot'⟩ :=
        alike_rootNodesIn hload Limit.includes.max nodes scope w₁
      cases o with
      | error e =>
        exact ⟨w', .inl ⟨e, (work_bind_ok hopen).trans (work_bind_error (hroot {})),
          (work_bind_ok hopen).trans (work_bind_error (hroot' {}))⟩⟩
      | ok scope =>
        exact ⟨w', .inr ⟨_, _, (work_bind_ok hopen).trans (work_bind_ok (hroot {})),
          (work_bind_ok hopen).trans (work_bind_ok (hroot' {})), hpages items items' hR⟩⟩

end Items

end Stylesheet
